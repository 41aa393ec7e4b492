import XerosKernel.Ia32
import XerosKernel.Runs
import XerosKernel.SignalFrames

/-!
The assembly code of `ctsw.c`. A round of the machine restores the registers of a process from its
stack, lets the process run, and saves its registers at the interrupt that stops it; what `dispatch`
sees of this is a `Trap`.
-/

namespace XerosKernel

open Execution Ia32

instance : WordMemory Memory where
  load := loadWord
  store := storeWord
  load_store := loadWord_storeWord
  load_store_apart _ _ _ _ apart := loadWord_storeWord_other apart.1 apart.2

inductive Static
  | saveESP
  | rc
  | trapNo
  | args
  deriving DecidableEq, Repr

def switchToProcess : List (Instr Static) :=
  [.pushf,
    .pusha,
    .load .rc .eax,
    .load .saveESP .edx,
    .store .esp .saveESP,
    .mov .edx .esp,
    .storeAt .eax 28 .esp,
    .popa,
    .iret]

def commonJumpPoint : List (Instr Static) :=
  [.mov .eax .ebx,
    .load .saveESP .eax,
    .store .esp .saveESP,
    .mov .eax .esp,
    .storeAt .ebx 28 .esp,
    .storeAt .ecx 24 .esp,
    .storeAt .edx 20 .esp,
    .popa,
    .popf,
    .store .eax .rc,
    .store .ecx .trapNo,
    .store .edx .args]

def TrapNo.code : TrapNo → Word
  | .kernel => 0
  | .timer => 1
  | .keyboard => 2

/-- `_KernelEntryPoint`, `_TimerEntryPoint` and `_KeyboardEntryPoint`, each up to the common code. -/
def entryPoint (trapNo : TrapNo) : List (Instr Static) :=
  [.cli, .pusha, .movImm trapNo.code .ecx] ++ commonJumpPoint

/-- A round: the registers and variables with which `contextswitch` is called, and the registers and
the memory of the process when an interrupt stops it. -/
structure Round where
  statics : Static → Word
  kernelRegs : Registers
  trapNo : TrapNo
  regs : Registers
  mem : Memory
  ports : Ports

/-- The statements of `contextswitch` before the assembly code. -/
def contextswitchEntry (statics : Static → Word) (pcb : Pcb) : Static → Word
  | .saveESP => pcb.esp
  | .rc => pcb.ret
  | v => statics v

/-- The statements of `contextswitch` behind the assembly code. -/
def contextswitchExit (kernel : Kernel) (p : Slot) (statics : Static → Word) : Kernel × Word :=
  let kernel := kernel.modify p fun pcb => { pcb with esp := statics .saveESP }
  if statics .trapNo = 1 then
    (kernel.modify p fun pcb => { pcb with ret := statics .rc }, SYS_TIMER)
  else if statics .trapNo = 2 then
    (kernel.modify p fun pcb => { pcb with ret := statics .rc }, SYS_KEYBOARD)
  else (kernel.modify p fun pcb => { pcb with args := statics .args }, statics .rc)

namespace Round

variable (round : Round)

def switchIn (kernel : Kernel) (p : Slot) : State Static Memory :=
  execute ⟨round.kernelRegs, contextswitchEntry round.statics (kernel.proctab p), kernel.mem⟩
    switchToProcess

def switchOut (evec : TrapNo → Word) (kernel : Kernel) (p : Slot) : State Static Memory :=
  let stopped : State Static Memory := ⟨round.regs, (round.switchIn kernel p).var, round.mem⟩
  execute (stopped.interrupt (evec round.trapNo)) (entryPoint round.trapNo)

end Round

/-- A round of the loop in `dispatch` with the registers. -/
def machineDispatch (evec : TrapNo → Word) (env : Env) (d : Dispatcher) (round : Round) :
    Option Dispatcher :=
  let out := round.switchOut evec d.kernel d.current
  let (kernel, r) := contextswitchExit { d.kernel with mem := out.mem } d.current out.var
  serve env kernel d.current round.ports (decode kernel d.current r)

def Round.kernelStack (round : Round) : Word := round.kernelRegs.esp - 36

/-- The words that the kernel leaves on its stack are apart from the frames of the process, and the
process does not write to them. -/
structure StackKept (d : Dispatcher) (round : Round) : Prop where
  resumes : Apart round.kernelStack 36 (d.kernel.proctab d.current).esp 44
  stops : Apart round.kernelStack 36 (round.regs.esp - 44) 44
  kept : words round.mem round.kernelStack 9 =
    words (round.switchIn d.kernel d.current).mem round.kernelStack 9

instance (d : Dispatcher) (round : Round) : Decidable (StackKept d round) :=
  decidable_of_iff (Apart round.kernelStack 36 (d.kernel.proctab d.current).esp 44 ∧
      Apart round.kernelStack 36 (round.regs.esp - 44) 44 ∧
      words round.mem round.kernelStack 9 =
        words (round.switchIn d.kernel d.current).mem round.kernelStack 9)
    ⟨fun h => ⟨h.1, h.2.1, h.2.2⟩, fun h => ⟨h.1, h.2, h.3⟩⟩

variable {kernel : Kernel} {p : Slot} {round : Round} {d : Dispatcher} {env : Env}
  {evec : TrapNo → Word}

theorem words_storeWord {mem : Memory} {addr value : Word} {n : Nat} (offset : Word) (i : Nat)
    (isOffset : offset = BitVec.ofNat 32 (4 * i)) (few : 4 * n < 2 ^ 32) (isIn : i < n) :
    words (storeWord mem (addr + offset) value) addr n = (words mem addr n).set i value := by
  rw [isOffset]
  exact words_set mem addr value n i few isIn

/-! To the process. -/

namespace Round

def left (round : Round) (kernel : Kernel) (p : Slot) : State Static Memory :=
  execute ⟨round.kernelRegs, contextswitchEntry round.statics (kernel.proctab p), kernel.mem⟩
    [.pushf, .pusha]

theorem exchange_eq (s : State Static Memory) :
    execute s [.load .rc .eax, .load .saveESP .edx, .store .esp .saveESP, .mov .edx .esp,
      .storeAt .eax 28 .esp] =
    { regs := { s.regs with eax := s.var .rc, edx := s.var .saveESP, esp := s.var .saveESP }
      var := fun v => if v = .saveESP then s.regs.esp else s.var v
      mem := storeWord s.mem (s.var .saveESP + 28) (s.var .rc) } := by
  simp [execute, Instr.exec, State.setReg, Registers.set, Registers.get]
  rfl

theorem switchIn_eq (round : Round) (kernel : Kernel) (p : Slot) :
    round.switchIn kernel p =
    { regs := resumed (storeWord (round.left kernel p).mem ((kernel.proctab p).esp + 28)
        (kernel.proctab p).ret) (kernel.proctab p).esp
      var := fun v => if v = .saveESP then round.kernelStack else
        contextswitchEntry round.statics (kernel.proctab p) v
      mem := storeWord (round.left kernel p).mem ((kernel.proctab p).esp + 28)
        (kernel.proctab p).ret } := by
  have parts : switchToProcess = [.pushf, .pusha] ++ ([.load .rc .eax, .load .saveESP .edx,
      .store .esp .saveESP, .mov .edx .esp, .storeAt .eax 28 .esp] ++ [.popa, .iret]) := rfl
  have var : (round.left kernel p).var =
      contextswitchEntry round.statics (kernel.proctab p) := left_var _
  have esp : (round.left kernel p).regs.esp = round.kernelStack :=
    congrArg Registers.esp (left_regs _)
  rw [switchIn, parts, execute_append, ← left, execute_append, exchange_eq, execute_popa_iret, var,
    esp]
  rfl

theorem switchIn_regs (apart : Apart round.kernelStack 36 (kernel.proctab p).esp 44) :
    (round.switchIn kernel p).regs =
      { resumed kernel.mem (kernel.proctab p).esp with eax := (kernel.proctab p).ret } := by
  have same : words (round.left kernel p).mem (kernel.proctab p).esp 11 =
      words kernel.mem (kernel.proctab p).esp 11 := words_left_apart _ _ 11 apart
  rw [switchIn_eq, ← resumed_congr same]
  exact resumed_eax _ _ _

theorem switchIn_kept (apart : Apart round.kernelStack 36 (kernel.proctab p).esp 44) :
    words (round.switchIn kernel p).mem round.kernelStack 9 = round.kernelRegs.kept := by
  have kept : words (round.left kernel p).mem round.kernelStack 9 = round.kernelRegs.kept :=
    words_left _
  rw [switchIn_eq, ← kept]
  apply words_store
  apply apart.symm.inside
  · decide
  · decide

/-! To the kernel. -/

theorem unexchange_eq (s : State Static Memory) (code : Word) :
    execute s [.movImm code .ecx, .mov .eax .ebx, .load .saveESP .eax, .store .esp .saveESP,
      .mov .eax .esp, .storeAt .ebx 28 .esp, .storeAt .ecx 24 .esp, .storeAt .edx 20 .esp] =
    { regs := { s.regs with
        ecx := code, ebx := s.regs.eax, eax := s.var .saveESP, esp := s.var .saveESP }
      var := fun v => if v = .saveESP then s.regs.esp else s.var v
      mem := storeWord (storeWord (storeWord s.mem (s.var .saveESP + 28) s.regs.eax)
        (s.var .saveESP + 24) code) (s.var .saveESP + 20) s.regs.edx } := by
  simp [execute, Instr.exec, State.setReg, Registers.set, Registers.get]
  rfl

def handed (saveESP rc trapNo args : Word) : Static → Word
  | .saveESP => saveESP
  | .rc => rc
  | .trapNo => trapNo
  | .args => args

theorem restored_eq {s : State Static Memory}
    {edi esi ebp ignored ebx edx ecx eax eflags : Word}
    (frame : words s.mem s.regs.esp 9 = [edi, esi, ebp, ignored, ebx, edx, ecx, eax, eflags]) :
    execute s [.popa, .popf, .store .eax .rc, .store .ecx .trapNo, .store .edx .args] =
    { regs := ⟨eax, ecx, edx, ebx, s.regs.esp + 36, ebp, esi, edi, s.regs.eip, s.regs.cs, eflags⟩
      var := handed (s.var .saveESP) eax ecx edx
      mem := s.mem } := by
  simp only [words, List.cons.injEq, and_true, BitVec.add_assoc] at frame
  obtain ⟨rfl, rfl, rfl, rfl, rfl, rfl, rfl, rfl, rfl⟩ := frame
  simp only [execute, Instr.exec, List.foldl_cons, List.foldl_nil, Registers.get, BitVec.add_assoc]
  congr
  funext v
  cases v <;> rfl

def frame (round : Round) : Word := round.regs.esp - 44

def stopped (round : Round) : State Static Memory := ⟨round.regs, round.statics, round.mem⟩

def pushed (round : Round) (evec : TrapNo → Word) : Memory :=
  (execute (round.stopped.interrupt (evec round.trapNo)) [.cli, .pusha]).mem

def handedMem (round : Round) (evec : TrapNo → Word) : Memory :=
  storeWord (storeWord (storeWord (round.pushed evec) (round.kernelStack + 28) round.regs.eax)
    (round.kernelStack + 24) round.trapNo.code) (round.kernelStack + 20) round.regs.edx

/-- What `dispatch` sees of the round. -/
def trap (round : Round) (evec : TrapNo → Word) : Trap where
  trapNo := round.trapNo
  esp := round.frame
  eax := round.regs.eax
  edx := round.regs.edx
  mem := round.handedMem evec
  ports := round.ports

theorem words_handed (evec : TrapNo → Word)
    (stops : Apart round.kernelStack 36 round.frame 44)
    (kept : words round.mem round.kernelStack 9 = round.kernelRegs.kept) :
    words (round.handedMem evec) round.kernelStack 9 =
      [round.kernelRegs.edi, round.kernelRegs.esi, round.kernelRegs.ebp, round.kernelRegs.esp - 4,
        round.kernelRegs.ebx, round.regs.edx, round.trapNo.code, round.regs.eax,
        round.kernelRegs.eflags] := by
  have pushed : words (round.pushed evec) round.kernelStack 9 = round.kernelRegs.kept :=
    (words_entered_apart round.stopped _ _ 9 stops.symm).trans kept
  rw [handedMem, words_storeWord 20 5 rfl (by decide) (by decide),
    words_storeWord 24 6 rfl (by decide) (by decide),
    words_storeWord 28 7 rfl (by decide) (by decide), pushed]
  rfl

theorem handed_restored (evec : TrapNo → Word)
    (stops : Apart round.kernelStack 36 round.frame 44)
    (kept : words round.mem round.kernelStack 9 = round.kernelRegs.kept)
    {s : State Static Memory} (mem : s.mem = round.handedMem evec)
    (esp : s.regs.esp = round.kernelStack) :
    execute s [.popa, .popf, .store .eax .rc, .store .ecx .trapNo, .store .edx .args] =
    { regs := ⟨round.regs.eax, round.trapNo.code, round.regs.edx, round.kernelRegs.ebx,
        round.kernelStack + 36, round.kernelRegs.ebp, round.kernelRegs.esi, round.kernelRegs.edi,
        s.regs.eip, s.regs.cs, round.kernelRegs.eflags⟩
      var := handed (s.var .saveESP) round.regs.eax round.trapNo.code round.regs.edx
      mem := round.handedMem evec } := by
  have frame := words_handed evec stops kept
  rw [← mem, ← esp] at frame
  rw [restored_eq frame, esp, mem]

theorem words_frame (evec : TrapNo → Word) (stops : Apart round.kernelStack 36 round.frame 44) :
    words (round.handedMem evec) round.frame 11 = round.regs.saved := by
  have pushed : words (round.pushed evec) round.frame 11 = round.regs.saved :=
    words_entered round.stopped _
  have other : ∀ (mem : Memory) (offset value : Word), offset.toNat + 4 ≤ 36 →
      words (storeWord mem (round.kernelStack + offset) value) round.frame 11 =
        words mem round.frame 11 :=
    fun mem offset value fits => words_store mem _ value _ 11 (stops.inside (by decide) fits)
  rw [handedMem, other _ _ _ (by decide), other _ _ _ (by decide), other _ _ _ (by decide), pushed]

def returned (round : Round) (evec : TrapNo → Word) : Registers :=
  { round.kernelRegs with
    eax := round.regs.eax
    ecx := round.trapNo.code
    edx := round.regs.edx
    eip := evec round.trapNo
    cs := round.regs.cs }

theorem switchOut_eq (evec : TrapNo → Word)
    (resumes : Apart round.kernelStack 36 (kernel.proctab p).esp 44)
    (stops : Apart round.kernelStack 36 round.frame 44)
    (kept : words round.mem round.kernelStack 9 =
      words (round.switchIn kernel p).mem round.kernelStack 9) :
    round.switchOut evec kernel p =
    { regs := round.returned evec
      var := handed round.frame round.regs.eax round.trapNo.code round.regs.edx
      mem := round.handedMem evec } := by
  rw [switchIn_kept resumes] at kept
  have parts : entryPoint round.trapNo = [.cli, .pusha] ++ ([.movImm round.trapNo.code .ecx,
      .mov .eax .ebx, .load .saveESP .eax, .store .esp .saveESP, .mov .eax .esp,
      .storeAt .ebx 28 .esp, .storeAt .ecx 24 .esp, .storeAt .edx 20 .esp] ++
      [.popa, .popf, .store .eax .rc, .store .ecx .trapNo, .store .edx .args]) := rfl
  rw [switchOut, parts, execute_append, execute_append]
  obtain ⟨s, isEntered⟩ : ∃ s, s = execute (State.interrupt ⟨round.regs,
    (round.switchIn kernel p).var, round.mem⟩ (evec round.trapNo)) [.cli, .pusha] := ⟨_, rfl⟩
  have regs : s.regs = { round.regs.gated (evec round.trapNo) with esp := round.frame } := by
    rw [isEntered, entered_regs]
    rfl
  have var : s.var .saveESP = round.kernelStack := by
    rw [isEntered, entered_var, switchIn_eq]
    rfl
  have mem : s.mem = round.pushed evec := by
    rw [isEntered, pushed]
    exact entered_mem (evec round.trapNo) rfl rfl
  rw [← isEntered, unexchange_eq, regs, var, mem]
  rw [handed_restored evec stops kept]
  · have top : round.kernelStack + 36 = round.kernelRegs.esp := BitVec.sub_add_cancel _ _
    rw [top]
    rfl
  · rfl
  · rfl

end Round

theorem contextswitchExit_trap (kernel : Kernel) (p : Slot) (round : Round)
    (evec : TrapNo → Word) :
    contextswitchExit { kernel with mem := round.handedMem evec } p
      (Round.handed round.frame round.regs.eax round.trapNo.code round.regs.edx) =
      contextswitch kernel p (round.trap evec) := by
  cases isTrap : round.trapNo with
  | kernel => simp [contextswitchExit, contextswitch, Round.handed, Round.trap, TrapNo.code, isTrap]
  | timer => simp [contextswitchExit, contextswitch, Round.handed, Round.trap, TrapNo.code, isTrap]
  | keyboard =>
      simp [contextswitchExit, contextswitch, Round.handed, Round.trap, TrapNo.code, isTrap]

theorem machineDispatch_eq (evec : TrapNo → Word) (env : Env) (kept : StackKept d round) :
    machineDispatch evec env d round = dispatch env d (round.trap evec) := by
  rw [machineDispatch, Round.switchOut_eq evec kept.resumes kept.stops kept.kept]
  simp only [contextswitchExit_trap]
  rfl

/-- Both stacks are left in good order: the process goes on with the registers that lie on its stack
and with `ret` in `eax`, and the kernel gets its registers back except for the three that hand over
the interrupt. The clobber list of the assembly code names `eax`, `ebx` and `edx`: `ecx`, which
comes back as `trapNo`, is missing there. -/
structure RegistersRestored (evec : TrapNo → Word) (d : Dispatcher) (round : Round) : Prop where
  process : (round.switchIn d.kernel d.current).regs =
    { resumed d.kernel.mem (d.kernel.proctab d.current).esp with
      eax := (d.kernel.proctab d.current).ret }
  kernel : (round.switchOut evec d.kernel d.current).regs =
    { round.kernelRegs with
      eax := round.regs.eax
      ecx := round.trapNo.code
      edx := round.regs.edx
      eip := evec round.trapNo
      cs := round.regs.cs }

theorem StackKept.restored (kept : StackKept d round) (evec : TrapNo → Word) :
    RegistersRestored evec d round where
  process := Round.switchIn_regs kept.resumes
  kernel := by
    rw [Round.switchOut_eq evec kept.resumes kept.stops kept.kept]
    rfl

/-- On every run of the machine the registers are restored, and what `dispatch` does is a run on the
traps of the rounds. -/
theorem context_switch_refined {evec : TrapNo → Word} {env : Env} {d : Dispatcher}
    {rounds : List Round} (kept : Along (machineDispatch evec env) StackKept d rounds) :
    run (machineDispatch evec env) d rounds =
      run (dispatch env) d (rounds.map fun round => round.trap evec) ∧
    Along (machineDispatch evec env) (RegistersRestored evec) d rounds := by
  constructor
  · apply run_map (dispatch env) (fun round => round.trap evec) _ kept
    intro d round kept
    exact machineDispatch_eq evec env kept
  · exact along_imp (fun d round kept => kept.restored evec) kept

/-! Sample rounds. -/

def sampleEvec : TrapNo → Word
  | .kernel => 0x1000
  | .timer => 0x1010
  | .keyboard => 0x1020

def kernelSample : Registers :=
  ⟨0, 0, 0, 0x11, 0x9000, 0x9010, 0x22, 0x33, 0x1030, 8, 0x2⟩

def processSample : Registers :=
  ⟨0x101, 0x102, 0x103, 0x104, 0x80000, 0x80020, 0x105, 0x106, 0x3010, 8, 0x3246⟩

def sampleRound (trapNo : TrapNo) : Round where
  statics := fun _ => 0
  kernelRegs := kernelSample
  trapNo := trapNo
  regs := processSample
  mem := (execute ⟨kernelSample, fun _ => (0 : Word), fun _ => 0⟩
    ([.pushf, .pusha] : List (Instr Static))).mem
  ports := ⟨0, 0⟩

theorem context_switch_refined_sample : ∃ d d' : Dispatcher, boot sampleEnv = some d ∧
    run (machineDispatch sampleEvec sampleEnv) d [sampleRound .timer, sampleRound .keyboard] =
      some d' ∧
    run (dispatch sampleEnv) d
      [(sampleRound .timer).trap sampleEvec, (sampleRound .keyboard).trap sampleEvec] = some d' ∧
    d'.current ≠ d.current := by
  have check : ∃ d ∈ boot sampleEnv,
      Along (machineDispatch sampleEvec sampleEnv) StackKept d
        [sampleRound .timer, sampleRound .keyboard] ∧
      ∃ d' ∈ run (machineDispatch sampleEvec sampleEnv) d
        [sampleRound .timer, sampleRound .keyboard], d'.current ≠ d.current := by
    decide +kernel
  obtain ⟨d, booted, along, d', reached, other⟩ := check
  have refined := (context_switch_refined along).1
  exact ⟨d, d', booted, reached, refined.symm.trans reached, other⟩

end XerosKernel
