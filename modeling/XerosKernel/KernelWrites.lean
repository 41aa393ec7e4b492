import XerosKernel.ContextSwitch
import XerosKernel.DataBuffers
import XerosKernel.StackMemory
import XerosKernel.Transparency

/-!
Where the kernel writes to the memory of the processes: into the buffers that a request names, below
the stack pointer of a process that gets a signal, and onto the stack of a new process.
-/

namespace XerosKernel

open Execution Ia32

def InBlock (block : Word × Nat) (addr : Word) : Prop := (addr - block.1).toNat < block.2

instance (block : Word × Nat) (addr : Word) : Decidable (InBlock block addr) :=
  inferInstanceAs (Decidable (_ < _))

def WritesIn (blocks : List (Word × Nat)) (kernel kernel' : Kernel) : Prop :=
  ∀ addr, (∀ block ∈ blocks, ¬ InBlock block addr) → kernel'.mem addr = kernel.mem addr

/-- What the driver of an open device fills. The random device rounds up to its groups of four bytes,
and the keyboard writes a character to the buffer and one to where `dataBuffer` points. -/
def readBlocks (env : Env) (kernel : Kernel) (p : Slot) (fd buff bufflen : Word) :
    List (Word × Nat) :=
  if CallsDevice env kernel p fd buff then
    match deviceOf kernel p fd with
    | none => []
    | some .zero => [(buff, bufflen.toNat)]
    | some .rand => if 0 < bufflen.toInt then [(buff, (bufflen.toNat + 3) / 4 * 4)] else []
    | some .kbd => [(buff, 1), (kernel.dataBuffer p (fdIndex fd), 1)]
  else []

def writeBlocks (env : Env) (kernel : Kernel) (p : Slot) (fd buff bufflen : Word) :
    List (Word × Nat) :=
  if CallsDevice env kernel p fd buff ∧ deviceOf kernel p fd = some .zero then
    [(kernel.dataBuffer p (fdIndex fd), bufflen.toNat)]
  else []

/-- The blocks that serving a request may change. -/
def Request.blocks (env : Env) (kernel : Kernel) (p : Slot) : Request → List (Word × Nat)
  | .create fp stack => (newStack kernel (.create fp stack)).toList.map fun new =>
      (new.2 + stackNeed stack - 48, 48)
  | .kill pid signum => (signalCalled kernel (.kill pid signum)).toList.flatMap
      fun (kernel, target, signum) =>
        if Interrupts kernel target signum then [((kernel.proctab target).esp - 68, 68)] else []
  | .cputimes ps => if FillsTable env ps then [(ps, 772)] else []
  | .read fd buff bufflen => readBlocks env kernel p fd buff bufflen
  | .write fd buff bufflen => writeBlocks env kernel p fd buff bufflen
  | _ => []

variable {env : Env} {kernel kernel' kernel'' : Kernel} {p : Slot} {ports : Ports}
  {request : Request} {d d' : Dispatcher} {fd buff bufflen value : Word}
  {blocks : List (Word × Nat)}

theorem words_congr {mem mem' : Memory} {addr : Word} {n : Nat}
    (bytes : ∀ i < 4 * n, mem' (addr + BitVec.ofNat 32 i) = mem (addr + BitVec.ofNat 32 i)) :
    words mem' addr n = words mem addr n := by
  induction n generalizing addr with
  | zero => rfl
  | succ n ih =>
      have first : loadWord mem' addr = loadWord mem addr := by
        have zero := bytes 0 (by omega)
        have one := bytes 1 (by omega)
        have two := bytes 2 (by omega)
        have three := bytes 3 (by omega)
        rw [show addr + BitVec.ofNat 32 0 = addr from BitVec.add_zero addr] at zero
        simp only [loadWord]
        rw [← zero]
        exact congrArg₂ (· ++ ·) (congrArg₂ (· ++ ·) (congrArg₂ (· ++ ·) three two) one) rfl
      have rest : words mem' (addr + 4) n = words mem (addr + 4) n := by
        apply ih
        intro i inside
        have shift : addr + 4 + BitVec.ofNat 32 i = addr + BitVec.ofNat 32 (i + 4) := by bv_omega
        rw [shift]
        apply bytes
        omega
      exact congrArg₂ List.cons first rest

namespace WritesIn

theorem same (mem : kernel'.mem = kernel.mem) : WritesIn blocks kernel kernel' :=
  fun addr _ => congrFun mem addr

theorem trans (first : WritesIn blocks kernel kernel') (second : WritesIn blocks kernel' kernel'') :
    WritesIn blocks kernel kernel'' :=
  fun addr outside => (second addr outside).trans (first addr outside)

theorem words {addr : Word} {n : Nat} (writes : WritesIn blocks kernel kernel')
    (apart : ∀ block ∈ blocks, Apart block.1 block.2 addr (4 * n)) :
    words kernel'.mem addr n = words kernel.mem addr n := by
  apply words_congr
  intro i inside
  apply writes
  intro block isIn within
  obtain ⟨behind, before⟩ := apart block isIn
  unfold InBlock at within
  bv_omega

end WritesIn

/-! The signals. -/

theorem pushFrame_writes (env : Env) (kernel : Kernel) (p : Slot) (signum : Fin MAX_SIG) :
    WritesIn [((kernel.proctab p).esp - 68, 68)] kernel (pushFrame env kernel p signum) := by
  intro addr outside
  have apart := outside _ List.mem_cons_self
  simp only [InBlock] at apart
  simp only [pushFrame, Kernel.modify_mem, sizeofSignalFrame, sizeofContextFrame]
  generalize (kernel.proctab p).esp = esp at apart
  simp (disch := bv_omega) only [storeWord_outside]

theorem signal_writes (env : Env) (kernel : Kernel) (p : Slot) (signum : Fin MAX_SIG) :
    WritesIn (if Interrupts kernel p signum then [((kernel.proctab p).esp - 68, 68)] else []) kernel
      (signal env kernel p signum).2 := by
  have esp := posted_same kernel p signum (·.esp) (fun _ _ => rfl) p
  rcases signal_cases env kernel p signum with
    ⟨_, same⟩ | ⟨handled, ⟨lower, same⟩ | ⟨_, same⟩⟩ <;> rw [same]
  · exact WritesIn.same rfl
  · have pushed := pushFrame_writes env (posted kernel p signum) p signum
    rw [if_pos ⟨handled, lower⟩, ← esp]
    exact pushed
  · exact WritesIn.same rfl

/-! The devices. -/

theorem randReadLoop_endless {fuel : Nat} {i bytesRead : Word} (env : Env) (kernel : Kernel)
    (buff : Word) (long : 2147483644 < bufflen.toInt) (aligned : i.toNat % 4 = 0) :
    randReadLoop env buff bufflen fuel kernel i bytesRead = none := by
  induction fuel generalizing kernel i bytesRead with
  | zero => rfl
  | succ fuel ih =>
      have value := BitVec.toInt_eq_toNat_cond i
      have more : i.slt bufflen = true := by
        rw [BitVec.slt_iff_toInt_lt]
        split at value <;> omega
      rw [randReadLoop, if_pos more]
      apply ih
      rw [BitVec.toNat_add]
      simp
      omega

theorem randReadLoop_writes {fuel : Nat} {i bytesRead i' bytesRead' : Word}
    (looped : randReadLoop env buff bufflen fuel kernel i bytesRead =
      some (kernel', i', bytesRead'))
    (positive : 0 < bufflen.toInt) (aligned : i.toNat % 4 = 0) (signed : i.toNat < 2 ^ 31) :
    WritesIn [(buff, (bufflen.toNat + 3) / 4 * 4)] kernel kernel' := by
  induction fuel generalizing kernel i bytesRead with
  | zero => cases looped
  | succ fuel ih =>
      rw [randReadLoop] at looped
      split at looped
      · rename_i more
        rw [BitVec.slt_iff_toInt_lt, BitVec.toInt_eq_toNat_of_lt (by omega)] at more
        have length := toInt_toNat (by omega : 0 ≤ bufflen.toInt)
        by_cases room : i.toNat + 4 < 2 ^ 31
        · have next : (i + 4).toNat = i.toNat + 4 := by bv_omega
          refine WritesIn.trans ?_ (ih looped (by omega) (by omega))
          intro addr outside
          have apart := outside _ List.mem_cons_self
          simp only [InBlock] at apart
          have away : ¬ addr - (buff + i) < 4 := by bv_omega
          simp only [randFill, memset, if_neg away]
        · have long : 2 ^ 31 - 4 < bufflen.toInt := by omega
          have endless : randReadLoop env buff bufflen fuel (randFill env kernel (buff + i) 4)
              (i + 4) (bytesRead + 4) = none :=
            randReadLoop_endless env _ buff long (by bv_omega)
          rw [endless] at looped
          cases looped
      · cases looped
        exact WritesIn.same rfl

theorem randRead_writes (answer : randRead env kernel buff bufflen = some (value, kernel')) :
    WritesIn (if 0 < bufflen.toInt then [(buff, (bufflen.toNat + 3) / 4 * 4)] else []) kernel
      kernel' := by
  unfold randRead at answer
  split at answer
  · cases answer
  · rename_i looped
    obtain ⟨_, _, full⟩ := randReadLoop_spec (by decide) looped
    rw [if_neg (by simp [full])] at answer
    cases answer
    by_cases positive : 0 < bufflen.toInt
    · rw [if_pos positive]
      exact randReadLoop_writes looped positive (by decide) (by decide)
    · have none : ¬ (0 : Word).slt bufflen = true := by
        rw [BitVec.slt_iff_toInt_lt]
        exact positive
      rw [randReadLoop, if_neg none] at looped
      cases looped
      exact WritesIn.same rfl

theorem storeByte_writes {mem : Memory} {dest addr : Word} {byte : Byte}
    (outside : ¬ InBlock (dest, 1) addr) : storeByte mem dest byte addr = mem addr := by
  have other : addr ≠ dest := by
    rintro rfl
    apply outside
    simp [InBlock]
  exact if_neg other

theorem kbdRead_writes (kernel : Kernel) (p : Slot) (fd buff : Word) :
    WritesIn [(buff, 1), (kernel.dataBuffer p (fdIndex fd), 1)] kernel
      (kbdRead kernel p fd buff).2 := by
  intro addr outside
  have first := outside (buff, 1) (by simp)
  have second := outside (kernel.dataBuffer p (fdIndex fd), 1) (by simp)
  rw [kbdRead_eq]
  cases firstUnread kernel.kbd with
  | none => rfl
  | some i =>
      simp only
      split
      · rw [ready_mem]
        exact storeByte_writes first
      · split
        · rfl
        · exact (storeByte_writes second).trans (storeByte_writes first)

theorem diRead_writes (read : diRead env kernel p fd buff bufflen = some (value, kernel')) :
    WritesIn (readBlocks env kernel p fd buff bufflen) kernel kernel' := by
  rw [diRead_eq] at read
  unfold readBlocks
  split at read
  · rename_i calls
    rw [if_pos calls]
    obtain ⟨device, opened, answer⟩ := Option.bind_eq_some_iff.mp read
    rw [opened]
    cases device with
    | zero =>
        cases answer
        intro addr outside
        have apart := outside _ List.mem_cons_self
        simp only [InBlock] at apart
        exact if_neg fun inside => apart inside
    | rand => exact randRead_writes answer
    | kbd =>
        have result : kbdRead kernel p fd buff = (value, kernel') := Option.some.inj answer
        have writes := kbdRead_writes kernel p fd buff
        rwa [result] at writes
  · cases read
    exact WritesIn.same rfl

theorem diWrite_writes (written : diWrite env kernel p fd buff bufflen = some (value, kernel')) :
    WritesIn (writeBlocks env kernel p fd buff bufflen) kernel kernel' := by
  rw [diWrite_eq] at written
  unfold writeBlocks
  split at written
  · rename_i calls
    obtain ⟨device, opened, answer⟩ := Option.map_eq_some_iff.mp written
    have mem := dvwrite_mem kernel p device fd buff bufflen
    rw [answer] at mem
    by_cases isZero : device = .zero
    · rw [if_pos isZero] at mem
      rw [if_pos ⟨calls, isZero ▸ opened⟩]
      intro addr outside
      have apart := outside _ List.mem_cons_self
      simp only [InBlock] at apart
      rw [mem]
      exact if_neg fun inside => apart inside
    · rw [if_neg isZero] at mem
      exact WritesIn.same mem
  · cases written
    exact WritesIn.same rfl

theorem openFirst_mem (kernel : Kernel) (p : Slot) (device : Device) :
    (openFirst kernel p device).2.mem = kernel.mem := by
  unfold openFirst
  split
  · rfl
  · rfl

theorem diOpen_mem (kernel : Kernel) (p : Slot) (device_no : Word) :
    (diOpen kernel p device_no).2.mem = kernel.mem := by
  unfold diOpen
  split
  · rfl
  · rename_i device _
    have opened := openFirst_mem kernel p device
    cases device with
    | zero => exact opened
    | rand => exact opened
    | kbd =>
        simp only [Device.dvopen, kbdOpen]
        split
        · exact opened
        · exact opened

theorem diClose_mem (closed : diClose kernel p fd = some (value, kernel')) :
    kernel'.mem = kernel.mem := by
  rcases diClose_calls closed with ⟨_, rfl⟩ | ⟨_, device, _, answer⟩
  · rfl
  · cases device <;> cases answer <;> rfl

theorem diIoctl_mem {command arg3 : Word}
    (controlled : diIoctl env kernel p fd command arg3 = some (value, kernel')) :
    kernel'.mem = kernel.mem := by
  rcases diIoctl_calls controlled with ⟨_, rfl⟩ | ⟨_, device, _, answer⟩
  · rfl
  · obtain ⟨eof, echo, seed, same⟩ := dvioctl_spec env kernel device command arg3
    rw [answer] at same
    have mem := congrArg Kernel.mem same
    exact mem

theorem kbdHandler_mem (kernel : Kernel) (p : Slot) (ports : Ports) :
    (kbdHandler kernel p ports).mem = kernel.mem := by
  obtain ⟨kbd, same | closed⟩ := kbdHandler_spec kernel p ports
  · rw [same]
  · rw [closed]
    rfl

/-! The table of the CPU times. -/

def enterRow (env : Env) (kernel : Kernel) (p : Slot) (ps : Word) (table : Word × Memory)
    (i : Slot) : Word × Memory :=
  let pcb := kernel.proctab i
  if pcb.state ≠ .stopped then
    let slot : Word := table.1 + 1
    let mem := storeWord table.2 (ps + 4 + 4 * slot) pcb.pid
    let mem := storeWord mem (ps + 4 + 256 + 4 * slot)
      (if (kernel.proctab p).pid = pcb.pid then ProcState.code env .running else pcb.state.code env)
    let mem := storeWord mem (ps + 4 + 512 + 4 * slot) (pcb.cpuTime * MILLISECONDS_TICK)
    (slot, mem)
  else table

theorem getCPUtimes_fills (kernel : Kernel) (p : Slot) {ps : Word} (fills : FillsTable env ps) :
    getCPUtimes env kernel p ps =
      let table := (List.finRange MAX_PROC).foldl (enterRow env kernel p ps) (-1, kernel.mem)
      (table.1, { kernel with mem := table.2 }) := by
  rw [getCPUtimes, if_neg fills.1, if_neg fills.2]
  split
  rename_i currentSlot mem filled
  have table : (List.finRange MAX_PROC).foldl (enterRow env kernel p ps) (-1, kernel.mem) =
      (currentSlot, mem) := by
    rw [← filled]
    congr 1
  rw [table]

theorem enterRow_outside (kernel : Kernel) (p : Slot) {ps addr : Word} {table : Word × Memory}
    (i : Slot) (room : (table.1 + 1).toNat < 64) (outside : ¬ InBlock (ps, 772) addr) :
    (enterRow env kernel p ps table i).2 addr = table.2 addr := by
  simp only [InBlock] at outside
  simp only [enterRow]
  split
  · simp (disch := bv_omega) only [storeWord_outside]
  · rfl

theorem enterRow_row (env : Env) (kernel : Kernel) (p : Slot) (ps : Word) (table : Word × Memory)
    (i : Slot) : (enterRow env kernel p ps table i).1 =
      if (kernel.proctab i).state ≠ .stopped then table.1 + 1 else table.1 := by
  simp only [enterRow]
  split
  · rfl
  · rfl

theorem enterRows_outside (procs : List Slot) (kernel : Kernel) (p : Slot) {ps addr : Word}
    (table : Word × Memory) (room : (table.1 + 1).toNat + procs.length ≤ 64)
    (outside : ¬ InBlock (ps, 772) addr) :
    (procs.foldl (enterRow env kernel p ps) table).2 addr = table.2 addr := by
  induction procs generalizing table with
  | nil => rfl
  | cons i rest ih =>
      rw [List.length_cons] at room
      have here : (enterRow env kernel p ps table i).2 addr = table.2 addr :=
        enterRow_outside kernel p i (by omega) outside
      rw [List.foldl_cons, ih, here]
      rw [enterRow_row]
      split <;> bv_omega

theorem getCPUtimes_writes (env : Env) (kernel : Kernel) (p : Slot) (ps : Word) :
    WritesIn (if FillsTable env ps then [(ps, 772)] else []) kernel
      (getCPUtimes env kernel p ps).2 := by
  by_cases fills : FillsTable env ps
  · rw [if_pos fills]
    intro addr outside
    have apart := outside _ List.mem_cons_self
    rw [getCPUtimes_fills kernel p fills]
    exact enterRows_outside _ kernel p (-1, kernel.mem) (by simp) apart
  · rw [getCPUtimes_rejected fills]
    exact WritesIn.same rfl

/-! The stack of a new process. -/

theorem initialFrame_writes (env : Env) (mem : Memory) (cf fp addr : Word)
    (outside : ¬ InBlock (cf, 48) addr) : initialFrame env mem cf fp addr = mem addr := by
  simp only [InBlock] at outside
  have behind : ¬ addr - cf < sizeofContextFrame := by
    unfold sizeofContextFrame
    bv_omega
  unfold initialFrame
  simp (disch := bv_omega) only [storeWord_outside]
  exact if_neg behind

theorem create_writes {fp stack : Word}
    (created : create env kernel fp stack = some (value, kernel')) :
    WritesIn (Request.blocks env kernel p (.create fp stack)) kernel kernel' := by
  simp only [create] at created
  split at created
  · cases created
    exact WritesIn.same rfl
  · rename_i i found
    cases allocated : kmalloc kernel.heap (stackNeed stack) with
    | none =>
        rw [allocated] at created
        cases created
    | some result =>
        obtain ⟨block, heap⟩ := result
        rw [allocated] at created
        have new := newStack_found fp found allocated
        by_cases refused : block = 0
        · simp only [if_pos refused] at created
          cases created
          exact WritesIn.same rfl
        · simp only [if_neg refused] at created
          cases created
          rw [if_neg refused] at new
          intro addr outside
          have apart := outside (block + stackNeed stack - 48, 48) (by simp [Request.blocks, new])
          have frame : block + stackNeed stack - 4 - sizeofContextFrame =
              block + stackNeed stack - 48 := by
            unfold sizeofContextFrame
            bv_omega
          rw [← frame] at apart
          rw [ready_mem]
          exact initialFrame_writes env kernel.mem _ fp addr apart

/-! Requests. -/

theorem serve_writes (served : serve env kernel p ports request = some d) :
    WritesIn (request.blocks env kernel p) kernel d.kernel := by
  cases request with
  | create fp stack =>
      obtain ⟨⟨value, kernel'⟩, created, rfl⟩ := Option.map_eq_some_iff.mp served
      exact (create_writes created).trans (WritesIn.same rfl)
  | yield =>
      exact WritesIn.same ((Rearranges.ready kernel p).trans (Rearranges.reschedule served)).mem
  | stop =>
      exact WritesIn.same ((Rearranges.modify kernel p _).trans (Rearranges.reschedule served)).mem
  | kill pid signum =>
      cases called : signalCalled kernel (.kill pid signum) with
      | none =>
          obtain ⟨⟨value, kernel'⟩, killed, rfl⟩ := Option.map_eq_some_iff.mp served
          obtain ⟨_, rfl⟩ := uncalled_dropped called killed
          exact WritesIn.same rfl
      | some call =>
          obtain ⟨kernel', target, signum'⟩ := call
          obtain ⟨_, rfl⟩ := called_answer (p := p) called served
          have rearranged : WritesIn (Request.blocks env kernel p (.kill pid signum)) kernel kernel' :=
            WritesIn.same (Rearranges.waking.signalCalled called).mem
          have signalled := signal_writes env kernel' target signum'
          refine rearranged.trans ?_
          simp only [Request.blocks, called, Option.toList_some, List.flatMap_cons,
            List.flatMap_nil, List.append_nil]
          exact signalled
  | cputimes ps =>
      cases served
      exact (getCPUtimes_writes env kernel p ps).trans (WritesIn.same rfl)
  | sleep len =>
      obtain ⟨kernel', slept, popped⟩ := Option.bind_eq_some_iff.mp served
      exact WritesIn.same ((Rearranges.sleep slept).trans (Rearranges.reschedule popped)).mem
  | timer =>
      obtain ⟨kernel', ticked, popped⟩ := Option.bind_eq_some_iff.mp served
      have counted := (Rearranges.tick ticked).trans (Rearranges.modify kernel' p fun pcb =>
        { pcb with cpuTime := pcb.cpuTime + 1 })
      have moved := (Rearranges.ready _ p).trans (Rearranges.reschedule popped)
      exact WritesIn.same (counted.trans moved).mem
  | sighandler signum handler =>
      rcases serve_sighandler served with ⟨_, rfl⟩ | ⟨_, rfl⟩
      · exact WritesIn.same rfl
      · exact WritesIn.same rfl
  | wait pid =>
      rcases serve_wait served with ⟨_, rfl⟩ | ⟨_, _, popped⟩
      · exact WritesIn.same rfl
      · exact WritesIn.same ((Rearranges.modify kernel p _).trans (Rearranges.reschedule popped)).mem
  | openDevice device_no =>
      cases served
      exact WritesIn.same (diOpen_mem kernel p device_no)
  | close fd =>
      obtain ⟨⟨value, kernel'⟩, closed, rfl⟩ := Option.map_eq_some_iff.mp served
      have mem := diClose_mem closed
      exact WritesIn.same mem
  | read fd buff bufflen =>
      obtain ⟨⟨value, kernel'⟩, read, rest⟩ := Option.bind_eq_some_iff.mp served
      have filled := diRead_writes read
      simp only at rest
      split at rest
      · exact filled.trans (WritesIn.same (Rearranges.reschedule rest).mem)
      · cases rest
        exact filled.trans (WritesIn.same rfl)
  | write fd buff bufflen =>
      obtain ⟨⟨value, kernel'⟩, written, rfl⟩ := Option.map_eq_some_iff.mp served
      exact (diWrite_writes written).trans (WritesIn.same rfl)
  | ioctl fd command arg3 =>
      obtain ⟨⟨value, kernel'⟩, controlled, rfl⟩ := Option.map_eq_some_iff.mp served
      have mem := diIoctl_mem controlled
      exact WritesIn.same mem
  | keyboard =>
      cases served
      exact WritesIn.same (kbdHandler_mem kernel p ports)
  | puts _ | getpid | sigreturn _ _ _ | bad _ =>
      cases served
      exact WritesIn.same rfl

theorem entered_mem_eq (d : Dispatcher) (trap : Trap) : (d.entered trap).mem = trap.mem := by
  simp only [Dispatcher.entered, contextswitch]
  cases trap.trapNo <;> rfl

/-! Runs. -/

/-- Nobody writes to the byte, neither the process that runs nor the kernel for it. -/
def SparesByte (env : Env) (addr : Word) (d : Dispatcher) (trap : Trap) : Prop :=
  trap.mem addr = d.kernel.mem addr ∧
  ∀ block ∈ (d.request trap).blocks env (d.entered trap) d.current, ¬ InBlock block addr

instance (env : Env) (addr : Word) (d : Dispatcher) (trap : Trap) :
    Decidable (SparesByte env addr d trap) := inferInstanceAs (Decidable (_ ∧ _))

/-- The kernel writes nowhere but into the blocks of the requests: on any run from a state that is
reached, a byte that is in none of them and that no process writes to stays the same. What a device
copies through a descriptor goes to the address 0. -/
theorem kernel_writes {env : Env} {before after : List Trap} {d d' : Dispatcher} {addr : Word}
    (reaches : Reaches env anyRequest before d)
    (spared : Along (dispatch env) (SparesByte env addr) d after)
    (reached : run (dispatch env) d after = some d') :
    d'.kernel.mem addr = d.kernel.mem addr ∧
    ∀ trap i fd, (d'.entered trap).dataBuffer i fd = 0 := by
  have kept : ∀ (state : Dispatcher) trap (next : Dispatcher),
      state.kernel.mem addr = d.kernel.mem addr → SparesByte env addr state trap →
      dispatch env state trap = some next → next.kernel.mem addr = d.kernel.mem addr := by
    intro state trap next same spares stepped
    rw [Dispatcher.dispatch_eq] at stepped
    rw [serve_writes stepped addr spares.2, entered_mem_eq, spares.1, same]
  have unset : Unbuffered d'.kernel := by
    have stays : ∀ (state : Dispatcher) trap (next : Dispatcher), Unbuffered state.kernel → True →
        dispatch env state trap = some next → Unbuffered next.kernel := by
      intro state trap next unset _ stepped
      rw [Dispatcher.dispatch_eq] at stepped
      exact serve_unbuffered (entered_unbuffered unset trap) stepped
    exact run_invariant stays (reaches_unbuffered reaches) along_true reached
  exact ⟨run_invariant kept rfl spared reached, fun trap => entered_unbuffered unset trap⟩

def fillRun : List Trap :=
  [sysopen sampleFrame 0, sysread sampleFrame 0 0x90000 4, sysgetcputimes sampleFrame 0x90008]

theorem kernel_writes_zeros : ∃ d d', Reaches sampleEnv anyRequest creatorRun d ∧
    run (dispatch sampleEnv) d fillRun = some d' ∧
    (∃ middle, run (dispatch sampleEnv) d (fillRun.take 1) = some middle ∧
      (middle.request (sysread sampleFrame 0 0x90000 4)).blocks sampleEnv
        (middle.entered (sysread sampleFrame 0 0x90000 4)) middle.current = [(0x90000, 4)]) ∧
    d'.kernel.mem 0x90004 = d.kernel.mem 0x90004 := by
  obtain ⟨d, reaches, check⟩ := reaches_of_check sampleEnv anyRequest creatorRun
    (fun d => Along (dispatch sampleEnv) (SparesByte sampleEnv 0x90004) d fillRun ∧
      (∃ middle ∈ run (dispatch sampleEnv) d (fillRun.take 1),
        (middle.request (sysread sampleFrame 0 0x90000 4)).blocks sampleEnv
          (middle.entered (sysread sampleFrame 0 0x90000 4)) middle.current = [(0x90000, 4)]) ∧
      ∃ d' ∈ run (dispatch sampleEnv) d fillRun, True) (by decide +kernel)
  obtain ⟨spared, ⟨middle, first, blocks⟩, d', reached, _⟩ := check
  exact ⟨d, d', reaches, reached, ⟨middle, first, blocks⟩, (kernel_writes reaches spared reached).1⟩

end XerosKernel
