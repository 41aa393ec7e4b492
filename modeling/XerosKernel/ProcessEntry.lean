import XerosKernel.Preemption
import XerosKernel.SyscallArguments

/-!
Where code of a process starts or goes on: a handler in `sigtramp`, a new process at its function,
and a call behind its trap. In between the other processes run, and newer handlers of the process.
-/

namespace XerosKernel

open Execution Ia32

variable {env : Env} {kernel kernel' : Kernel} {p i : Slot} {start d d' : Dispatcher}
  {w w' : Watched} {trap : Trap} {traps : List Trap} {signum : Fin MAX_SIG} {round : Round}

theorem faithful_reached
    (transparent : Along (Watched.step env p) (Transparent p) (Watched.start p start) traps)
    (reached : run (Watched.step env p) (Watched.start p start) traps = some w) :
    Faithful p w := by
  have initial : Faithful p (Watched.start p start) := ⟨Resumption.met_none _ _, .nil⟩
  exact run_invariant (fun w trap w' faithful transparent stepped =>
    faithful.step transparent stepped) initial transparent reached

theorem of_mem_none {P : Word → Prop} : ∀ value ∈ (none : Option Word), P value :=
  fun value isValue => (Option.not_mem_none value isValue).elim

/-! The frames below the level. -/

namespace Suspended

variable {depth : Nat} {esp addr : Word} {ret : Option Word} {saved : List Word}

theorem frames_step (suspended : Suspended p depth esp ret addr saved w)
    (spares : Spares env p depth addr saved.length w trap)
    (stepped : w.step env p trap = some w') :
    w'.frames.reverse.take depth = w.frames.reverse.take depth := by
  obtain ⟨d', _, rfl⟩ := Option.map_eq_some_iff.mp stepped
  have frames' : (w.next env p trap d').frames = w.framesAfter p trap d' := rfl
  have deep := suspended.deep
  rcases w.after_cases env p trap d' with ⟨frame, _, _, frames⟩ |
    ⟨isCurrent, _, _, frames⟩ | stopped | ⟨_, frames⟩
  · rw [frames', frames, List.reverse_cons]
    apply List.take_append_of_le_length
    rwa [List.length_reverse]
  · have above := (spares.2.2 isCurrent).1
    obtain ⟨newest, rest, isFrames⟩ := List.exists_cons_of_length_pos
      (by omega : 0 < w.frames.length)
    rw [isFrames, List.length_cons] at above
    rw [frames', frames, isFrames, List.tail_cons, List.reverse_cons]
    apply (List.take_append_of_le_length _).symm
    rw [List.length_reverse]
    omega
  · exact absurd stopped suspended.alive
  · rw [frames', frames]

theorem frames_resumed (suspended : Suspended p depth esp ret addr saved w)
    (transparent : Along (Watched.step env p) (Transparent p) w traps)
    (spares : Along (Watched.step env p) (Spares env p depth addr saved.length) w traps)
    (reached : Execution.run (Watched.step env p) w traps = some w')
    (atLevel : w.frames.length = depth) (returned : w'.frames.length = depth) :
    w'.frames = w.frames := by
  have both : Along (Watched.step env p) (fun w trap =>
      Transparent p w trap ∧ Spares env p depth addr saved.length w trap) w traps :=
    along_and transparent spares
  have kept : Suspended p depth esp ret addr saved w' ∧
      w'.frames.reverse.take depth = w.frames.reverse.take depth := by
    apply run_invariant _ ⟨suspended, rfl⟩ both reached
    intro w₁ trap w₂ ⟨suspended, same⟩ guard stepped
    exact ⟨suspended.step guard.1 guard.2 stepped,
      (suspended.frames_step guard.2 stepped).trans same⟩
  have same := kept.2
  rw [List.take_of_length_le (by rw [List.length_reverse, returned]),
    List.take_of_length_le (by rw [List.length_reverse, atLevel])] at same
  exact List.reverse_inj.mp same

end Suspended

/-! What the kernel does to the stack of the process that goes on. -/

namespace Round

theorem switchIn_behind (n : Nat) {addr : Word}
    (apart : Apart round.kernelStack 36 (kernel.proctab p).esp (44 + 4 * n))
    (few : 44 + 4 * n < 2 ^ 32) (behind : addr = (kernel.proctab p).esp + 44) :
    words (round.switchIn kernel p).mem addr n = words kernel.mem addr n := by
  cases n with
  | zero => rfl
  | succ n =>
      have left : words (round.left kernel p).mem addr (n + 1) = words kernel.mem addr (n + 1) := by
        apply words_left_apart
        rw [behind]
        apply (apart.symm.inside _ _).symm
        · omega
        · simp
      have stored : Apart ((kernel.proctab p).esp + 28) 4 addr (4 * (n + 1)) := by
        rw [behind]
        constructor
        · bv_omega
        · bv_omega
      rw [switchIn_eq, ← left]
      exact words_store _ _ _ _ _ stored

end Round

/-! Handlers. -/

structure SigtrampArgs where
  handler : Word
  cntx : Word
  old_sp : Word
  old_ret : Word
  sigLvl : Word
  deriving DecidableEq, Repr

/-- The parameters of a function lie above its return address. -/
def sigtrampArgs (mem : Memory) (esp : Word) : SigtrampArgs where
  handler := loadWord mem (esp + 4)
  cntx := loadWord mem (esp + 8)
  old_sp := loadWord mem (esp + 12)
  old_ret := loadWord mem (esp + 16)
  sigLvl := loadWord mem (esp + 20)

theorem sigtrampArgs_words {mem : Memory}
    {esp return_useless handler cntx old_sp old_ret sigLvl : Word}
    (found : words mem esp 6 = [return_useless, handler, cntx, old_sp, old_ret, sigLvl]) :
    sigtrampArgs mem esp = ⟨handler, cntx, old_sp, old_ret, sigLvl⟩ := by
  simp only [words, List.cons.injEq, and_true, BitVec.add_assoc] at found
  obtain ⟨rfl, rfl, rfl, rfl, rfl, rfl⟩ := found
  rfl

/-- What `sigtramp` does when the handler has returned. -/
def sigtramp (args : SigtrampArgs) (frame : UserFrame) : Trap :=
  syssigreturn frame args.old_sp args.old_ret args.sigLvl

def deliveredArgs (kernel : Kernel) (p : Slot) (signum : Fin MAX_SIG) : SigtrampArgs where
  handler := (kernel.proctab p).sigtab signum
  cntx := (kernel.proctab p).esp - sizeofSignalFrame - sizeofContextFrame
  old_sp := (kernel.proctab p).esp
  old_ret := (kernel.proctab p).ret
  sigLvl := (kernel.proctab p).currSigLvl

theorem pushFrame_words (env : Env) (kernel : Kernel) (p : Slot) (signum : Fin MAX_SIG) {cf : Word}
    (isCf : cf = (kernel.proctab p).esp - sizeofSignalFrame - sizeofContextFrame) :
    ∃ edi esi ebp ebx edx ecx eax return_useless : Word,
      words (pushFrame env kernel p signum).mem cf 17 =
        [edi, esi, ebp, cf, ebx, edx, ecx, eax, env.sigtramp, env.getCS, STARTING_EFLAGS,
          return_useless, (kernel.proctab p).sigtab signum, cf, (kernel.proctab p).esp,
          (kernel.proctab p).ret, (kernel.proctab p).currSigLvl] := by
  have signalFrame : ∀ offset : Word,
      (kernel.proctab p).esp - sizeofSignalFrame + offset = cf + (44 + offset) := by
    intro offset
    rw [isCf]
    simp only [sizeofSignalFrame, sizeofContextFrame]
    bv_omega
  simp only [pushFrame, Kernel.modify_mem, signalFrame, ← isCf]
  rw [words_storeWord (44 + 20) 16 rfl (by decide) (by decide),
    words_storeWord (44 + 16) 15 rfl (by decide) (by decide),
    words_storeWord (44 + 12) 14 rfl (by decide) (by decide),
    words_storeWord (44 + 8) 13 rfl (by decide) (by decide),
    words_storeWord (44 + 4) 12 rfl (by decide) (by decide),
    words_storeWord 40 10 rfl (by decide) (by decide),
    words_storeWord 36 9 rfl (by decide) (by decide),
    words_storeWord 32 8 rfl (by decide) (by decide),
    words_storeWord 12 3 rfl (by decide) (by decide)]
  exact ⟨_, _, _, _, _, _, _, _, rfl⟩

theorem signal_interrupts (env : Env) (delivers : Interrupts kernel p signum) :
    (signal env kernel p signum).2 = pushFrame env (posted kernel p signum) p signum := by
  rcases signal_cases env kernel p signum with ⟨ignored, _⟩ | ⟨_, ⟨_, same⟩ | ⟨higher, _⟩⟩
  · exact absurd ignored delivers.1
  · exact same
  · exact absurd delivers.2 higher

def deliveredTo (kernel : Kernel) (p : Slot) : Word :=
  (kernel.proctab p).esp - sizeofSignalFrame - sizeofContextFrame

theorem signal_words (env : Env) (delivers : Interrupts kernel p signum) :
    ((signal env kernel p signum).2.proctab p).esp = deliveredTo kernel p ∧
    ∃ edi esi ebp ebx edx ecx eax return_useless : Word,
      words (signal env kernel p signum).2.mem (deliveredTo kernel p) 17 =
        [edi, esi, ebp, deliveredTo kernel p, ebx, edx, ecx, eax, env.sigtramp, env.getCS,
          STARTING_EFLAGS, return_useless, (kernel.proctab p).sigtab signum, deliveredTo kernel p,
          (kernel.proctab p).esp, (kernel.proctab p).ret, (kernel.proctab p).currSigLvl] := by
  have same : ∀ {α : Type} (field : Pcb → α),
      (∀ pcb mask, field { pcb with sigmask := mask } = field pcb) →
      field ((posted kernel p signum).proctab p) = field (kernel.proctab p) :=
    fun field kept => posted_same kernel p signum field kept p
  have esp := same (·.esp) fun _ _ => rfl
  rw [signal_interrupts env delivers]
  constructor
  · simp only [pushFrame, Kernel.modify_proctab, if_true, deliveredTo, esp]
  · have pushed := pushFrame_words env (posted kernel p signum) p signum rfl
    rw [esp, same (·.ret) fun _ _ => rfl, same (·.currSigLvl) fun _ _ => rfl,
      congrFun (same (·.sigtab) fun _ _ => rfl) signum] at pushed
    exact pushed

theorem Suspended.delivery (faithful : Faithful p w) (transparent : Transparent p w trap)
    (alive : (w.d.kernel.proctab p).state ≠ .stopped)
    (called : signalCalled (w.d.entered trap) (w.d.request trap) = some (kernel, p, signum))
    (delivers : Interrupts kernel p signum) (stepped : w.step env p trap = some w') :
    w'.frames = interrupted kernel p :: w.frames ∧
    ∃ edi esi ebp ebx edx ecx eax return_useless : Word,
      Suspended p (w.frames.length + 1) (deliveredTo kernel p) none (deliveredTo kernel p)
        [edi, esi, ebp, deliveredTo kernel p, ebx, edx, ecx, eax, env.sigtramp, env.getCS,
          STARTING_EFLAGS, return_useless, (kernel.proctab p).sigtab signum, deliveredTo kernel p,
          (kernel.proctab p).esp, (kernel.proctab p).ret, (kernel.proctab p).currSigLvl] w' := by
  have faithful' := faithful.step transparent stepped
  obtain ⟨d', dispatched, rfl⟩ := Option.map_eq_some_iff.mp stepped
  have served := dispatched
  rw [Dispatcher.dispatch_eq] at served
  have goesOn : p = w.d.current → w.d.request trap ≠ .stop := by
    intro _ stops
    rw [stops] at called
    cases called
  have alive' := (serve_state goesOn served).alive ((entered_state w.d trap p).symm ▸ alive)
  have result := serve_called called served
  have context := congrArg Prod.fst (SameContexts.resume (signal env kernel p signum).2 w.d.current
    (signal env kernel p signum).1 p)
  obtain ⟨isEsp, edi, esi, ebp, ebx, edx, ecx, eax, return_useless, pushed⟩ :=
    signal_words env delivers
  have esp : (d'.kernel.proctab p).esp = deliveredTo kernel p := by
    rw [result, ← isEsp]
    exact context
  have mem : d'.kernel.mem = (signal env kernel p signum).2.mem := by
    rw [result]
    rfl
  rw [← mem] at pushed
  have frames : (w.next env p trap d').frames = interrupted kernel p :: w.frames :=
    (framesAfter_called called).trans (if_pos ⟨rfl, delivers⟩)
  have isAfter := (after_called env p d' called).trans (if_pos ⟨rfl, delivers⟩)
  have now : (w.next env p trap d').now = { esp := (d'.kernel.proctab p).esp, ret := none } :=
    congrArg Prod.fst isAfter
  have older : (w.next env p trap d').older.length = w.frames.length + 1 := by
    rw [← faithful'.older.length_eq, frames, List.length_cons]
  refine ⟨frames, edi, esi, ebp, ebx, edx, ecx, eax, return_useless, faithful', alive', ?_,
    ⟨_, levels_top older.symm [] _, ?_, ?_⟩, of_mem_none, pushed⟩
  · rw [frames, List.length_cons]
  · rw [now]
    exact esp
  · exact of_mem_none

/-- `s` is at the start of `sigtramp`, with the parameters of a delivery on its stack. -/
structure HandlerEntered (env : Env) (kernel : Kernel) (p : Slot) (signum : Fin MAX_SIG)
    (s : State Static Memory) : Prop where
  eip : s.regs.eip = env.sigtramp
  cs : s.regs.cs = env.getCS
  eflags : s.regs.eflags = STARTING_EFLAGS
  esp : s.regs.esp = (kernel.proctab p).esp - sizeofSignalFrame
  args : sigtrampArgs s.mem s.regs.esp = deliveredArgs kernel p signum

/-- In a run that is transparent to the process and spares the frames pushed for it, a signal that
is delivered makes its handler start, when the process runs at its level for the first time, in
`sigtramp` and with the parameters of the delivery; and what `sigtramp` then asks for brings back
the code that the signal interrupted. -/
theorem handler_entered {env : Env} {p : Slot} {signum : Fin MAX_SIG} {start : Dispatcher}
    {before after : List Trap} {trap : Trap} {round : Round} {w w' : Watched} {kernel : Kernel}
    (transparent : Along (Watched.step env p) (Transparent p) (Watched.start p start)
      (before ++ trap :: after))
    (reached : run (Watched.step env p) (Watched.start p start) before = some w)
    (alive : (w.d.kernel.proctab p).state ≠ .stopped)
    (called : signalCalled (w.d.entered trap) (w.d.request trap) = some (kernel, p, signum))
    (delivers : Interrupts kernel p signum)
    (spares : ∀ w₁, w.step env p trap = some w₁ → Along (Watched.step env p)
      (Spares env p (w.frames.length + 1) (deliveredTo kernel p) 17) w₁ after)
    (continued : run (Watched.step env p) w (trap :: after) = some w')
    (returned : w'.frames.length = w.frames.length + 1)
    (apart : Apart round.kernelStack 36 (w'.d.kernel.proctab p).esp 68) :
    HandlerEntered env kernel p signum (round.switchIn w'.d.kernel p) ∧
    ∀ (later : Watched) (frame : UserFrame), later.frames = w'.frames →
      later.d.request (sigtramp (deliveredArgs kernel p signum) frame) =
        .sigreturn (kernel.proctab p).esp (kernel.proctab p).ret (kernel.proctab p).currSigLvl ∧
      ReturnsNewest later.frames
        (later.d.request (sigtramp (deliveredArgs kernel p signum) frame)) := by
  obtain ⟨along, alongBehind⟩ := along_append transparent reached
  have faithful := faithful_reached along reached
  obtain ⟨w₁, stepped, rest⟩ := run_cons_eq_some.mp continued
  obtain ⟨frames, edi, esi, ebp, ebx, edx, ecx, eax, return_useless, suspended⟩ :=
    Suspended.delivery faithful alongBehind.1 alive called delivers stepped
  have waits := suspended.run (alongBehind.2 _ stepped) (spares _ stepped) rest
  have sameFrames := suspended.frames_resumed (alongBehind.2 _ stepped) (spares _ stepped) rest
    (by rw [frames, List.length_cons]) returned
  obtain ⟨esp, _, found⟩ := waits.resumes returned
  have split := words_split [edi, esi, ebp, deliveredTo kernel p, ebx, edx, ecx, eax,
    env.sigtramp, env.getCS, STARTING_EFLAGS] [return_useless, (kernel.proctab p).sigtab signum,
    deliveredTo kernel p, (kernel.proctab p).esp, (kernel.proctab p).ret,
    (kernel.proctab p).currSigLvl] found
  rw [← esp] at split
  obtain ⟨frame, behind⟩ := split
  have top : (w'.d.kernel.proctab p).esp + 44 = (kernel.proctab p).esp - sizeofSignalFrame := by
    rw [esp, deliveredTo]
    exact BitVec.sub_add_cancel _ _
  have regs := Round.switchIn_regs (apart.symm.first (by decide)).symm
  rw [resumed_words frame, top] at regs
  constructor
  · have kept := Round.switchIn_behind 6 apart (by decide) rfl
    have isArgs := sigtrampArgs_words (kept.trans behind)
    rw [top, esp] at isArgs
    constructor
    · rw [regs]
    · rw [regs]
    · rw [regs]
    · rw [regs]
    · rw [regs]
      exact isArgs
  · intro later frame isLater
    have entered : Stub.enter frame (.syssigreturn (kernel.proctab p).esp (kernel.proctab p).ret
        (kernel.proctab p).currSigLvl) = some (sigtramp (deliveredArgs kernel p signum) frame) := rfl
    have request := stub_request later.d entered
    rw [request, isLater, sameFrames, frames]
    exact ⟨rfl, rfl⟩

def sleeperSetup : List Trap :=
  creatorRun ++ ((syssignal sampleFrame 5 0x5100).toList ++ [syssleep sampleFrame 10])

def deliveredYield : Trap :=
  let mem := storeWord sampleFrame.mem 0x7FFC8 0x7FFBC
  let mem := storeWord mem 0x7FFDC sampleEnv.sigtramp
  let mem := storeWord mem 0x7FFE0 sampleEnv.getCS
  let mem := storeWord mem 0x7FFE4 STARTING_EFLAGS
  let mem := storeWord mem 0x7FFEC 0x5100
  let mem := storeWord mem 0x7FFF0 0x7FFBC
  let mem := storeWord mem 0x7FFF4 0x80000
  let mem := storeWord mem 0x7FFF8 10
  sysyield { sampleFrame with esp := 0x70000, mem := mem }

theorem handler_entered_sleeper : ∃ (start : Dispatcher) (w w' : Watched),
    boot sampleEnv = some start ∧
    run (Watched.step sampleEnv 3) (Watched.start 3 start) sleeperSetup = some w ∧
    run (Watched.step sampleEnv 3) w [syskill sampleFrame 3 5, deliveredYield, deliveredYield] =
      some w' ∧
    w'.d.current = 3 ∧
    ((sampleRound .timer).switchIn w'.d.kernel 3).regs.eip = sampleEnv.sigtramp ∧
    sigtrampArgs ((sampleRound .timer).switchIn w'.d.kernel 3).mem
      ((sampleRound .timer).switchIn w'.d.kernel 3).regs.esp =
        ⟨0x5100, 0x7FFBC, 0x80000, 10, 0⟩ := by
  have check : ∃ start ∈ boot sampleEnv,
      Along (Watched.step sampleEnv 3)
        (fun w trap => SignalsInPlace 3 w trap ∧ w.d.request trap ≠ .timer)
        (Watched.start 3 start)
          (sleeperSetup ++ syskill sampleFrame 3 5 :: [deliveredYield, deliveredYield]) ∧
      ∃ w ∈ run (Watched.step sampleEnv 3) (Watched.start 3 start) sleeperSetup,
        (w.d.kernel.proctab 3).state ≠ .stopped ∧ w.frames.length = 0 ∧
        (∃ call ∈ signalCalled (w.d.entered (syskill sampleFrame 3 5))
            (w.d.request (syskill sampleFrame 3 5)),
          call.2 = (3, 5) ∧ Interrupts call.1 3 5 ∧ deliveredTo call.1 3 = 0x7FFBC ∧
          deliveredArgs call.1 3 5 = ⟨0x5100, 0x7FFBC, 0x80000, 10, 0⟩) ∧
        (∃ w₁ ∈ Watched.step sampleEnv 3 w (syskill sampleFrame 3 5),
          Along (Watched.step sampleEnv 3) (Spares sampleEnv 3 1 0x7FFBC 17) w₁
            [deliveredYield, deliveredYield]) ∧
        ∃ w' ∈ run (Watched.step sampleEnv 3) w
          [syskill sampleFrame 3 5, deliveredYield, deliveredYield],
          w'.d.current = 3 ∧ w'.frames.length = 1 ∧
          Apart (sampleRound .timer).kernelStack 36 (w'.d.kernel.proctab 3).esp 68 := by
    decide +kernel
  obtain ⟨start, booted, along, w, reached, alive, none, ⟨⟨kernel, _, _⟩, called, isCall, delivers,
    isCf, isArgs⟩, ⟨w₁, stepped, spares⟩, w', continued, runs, returned, apart⟩ := check
  obtain ⟨rfl, rfl⟩ := Prod.mk.inj isCall
  have transparent : Along (Watched.step sampleEnv 3) (Transparent 3) (Watched.start 3 start)
      (sleeperSetup ++ syskill sampleFrame 3 5 :: [deliveredYield, deliveredYield]) :=
    along_imp (fun w trap inPlace =>
      ⟨inPlace.1, fun isTimer => absurd isTimer inPlace.2⟩) along
  have spares' : ∀ w₂, Watched.step sampleEnv 3 w (syskill sampleFrame 3 5) = some w₂ →
      Along (Watched.step sampleEnv 3)
        (Spares sampleEnv 3 (w.frames.length + 1) (deliveredTo kernel 3) 17) w₂
          [deliveredYield, deliveredYield] := by
    intro w₂ stepped'
    rw [stepped] at stepped'
    cases stepped'
    rw [none, isCf]
    exact spares
  have entered := (handler_entered transparent reached alive called delivers spares' continued
    (by rw [returned, none]) apart).1
  exact ⟨start, w, w', booted, reached, continued, runs, entered.eip, entered.args.trans isArgs⟩

/-! New processes. -/

def filler (value : Byte) : Word := value ++ value ++ value ++ value

theorem words_memset {mem : Memory} {dest n : Word} {value : Byte} {k : Nat}
    (fits : 4 * k ≤ n.toNat) :
    words (memset mem dest value n) dest k = List.replicate k (filler value) := by
  have constant : ∀ (addr : Word) (k : Nat),
      words (fun _ => value : Memory) addr k = List.replicate k (filler value) := by
    intro addr k
    induction k generalizing addr with
    | zero => rfl
    | succ k ih => exact congrArg (filler value :: ·) (ih (addr + 4))
  rw [← constant dest k]
  apply words_congr
  intro i inside
  apply if_pos
  bv_omega

theorem initialFrame_words (env : Env) (mem : Memory) (cf fp : Word) :
    words (initialFrame env mem cf fp) cf 12 =
      [filler 0xA5, filler 0xA5, cf + sizeofContextFrame, cf + sizeofContextFrame, filler 0xA5,
        filler 0xA5, filler 0xA5, filler 0xA5, fp, env.getCS, STARTING_EFLAGS, env.sysstop] := by
  have filled : words (memset mem cf 0xA5 sizeofContextFrame) cf 11 =
      List.replicate 11 (filler 0xA5) := words_memset (by decide)
  rw [initialFrame, words_storeWord 8 2 rfl (by decide) (by decide),
    words_storeWord 12 3 rfl (by decide) (by decide),
    words_storeWord 44 11 rfl (by decide) (by decide),
    words_storeWord 40 10 rfl (by decide) (by decide),
    words_storeWord 32 8 rfl (by decide) (by decide),
    words_storeWord 36 9 rfl (by decide) (by decide), words_add _ _ 11 1, filled]
  rfl

def startTop (stack block : Word) : Word := block + stackNeed stack - 4

theorem create_started {fp stack value block : Word}
    (created : create env kernel fp stack = some (value, kernel'))
    (new : newStack kernel (.create fp stack) = some (i, block)) :
    (kernel.proctab i).state = .stopped ∧ (kernel'.proctab i).state = .ready ∧
    (kernel'.proctab i).esp = startTop stack block - sizeofContextFrame ∧
    kernel'.mem = initialFrame env kernel.mem (startTop stack block - sizeofContextFrame) fp := by
  simp only [create] at created
  split at created
  · rename_i full
    rw [newStack_full fp stack full] at new
    cases new
  · rename_i slot found
    cases allocated : kmalloc kernel.heap (stackNeed stack) with
    | none =>
        rw [allocated] at created
        cases created
    | some result =>
        obtain ⟨block', heap⟩ := result
        rw [allocated] at created
        rw [newStack_found fp found allocated] at new
        by_cases refused : block' = 0
        · rw [if_pos refused] at new
          cases new
        · rw [if_neg refused] at new
          obtain ⟨rfl, rfl⟩ := Prod.mk.inj (Option.some.inj new)
          simp only [if_neg refused] at created
          cases created
          obtain ⟨free, _⟩ := createSearch_found (Prod.ext rfl found)
          refine ⟨free, ?_, ?_, ?_⟩
          · simp [ready_proctab]
          · simp only [ready_proctab, Kernel.modify_proctab, if_true]
            rfl
          · rw [ready_mem]
            rfl

theorem Suspended.creation {fp stack block : Word} (faithful : Faithful p w)
    (transparent : Transparent p w trap) (isCreate : w.d.request trap = .create fp stack)
    (new : newStack (w.d.entered trap) (.create fp stack) = some (p, block))
    (stepped : w.step env p trap = some w') :
    w'.frames = [] ∧
    Suspended p 0 (startTop stack block - sizeofContextFrame) none
      (startTop stack block - sizeofContextFrame)
      [filler 0xA5, filler 0xA5, startTop stack block, startTop stack block, filler 0xA5,
        filler 0xA5, filler 0xA5, filler 0xA5, fp, env.getCS, STARTING_EFLAGS, env.sysstop] w' := by
  have faithful' := faithful.step transparent stepped
  obtain ⟨d', dispatched, rfl⟩ := Option.map_eq_some_iff.mp stepped
  have served := dispatched
  rw [Dispatcher.dispatch_eq, isCreate] at served
  obtain ⟨⟨value, kernel'⟩, created, rfl⟩ := Option.map_eq_some_iff.mp served
  obtain ⟨free, isReady, isEsp, mem⟩ := create_started created new
  rw [entered_state] at free
  have same : ∀ {α : Type} (field : Pcb → α),
      (∀ pcb ret, field { pcb with ret := ret } = field pcb) →
      field ((resume w.d.current (value, kernel')).kernel.proctab p) =
        field (kernel'.proctab p) :=
    fun field kept => kernel'.modify_same w.d.current (fun pcb => { pcb with ret := value }) field
      (kept _ _) p
  have alive : ((resume w.d.current (value, kernel')).kernel.proctab p).state ≠ .stopped := by
    rw [same (·.state) fun _ _ => rfl, isReady]
    simp
  have esp := (same (·.esp) fun _ _ => rfl).trans isEsp
  have top : startTop stack block - sizeofContextFrame + sizeofContextFrame =
      startTop stack block := BitVec.sub_add_cancel _ _
  have found := initialFrame_words env (w.d.entered trap).mem
    (startTop stack block - sizeofContextFrame) fp
  rw [top, ← mem] at found
  have fills : (w.d.kernel.proctab p).state = .stopped ∧
      ((resume w.d.current (value, kernel')).kernel.proctab p).state ≠ .stopped := ⟨free, alive⟩
  have frames : (w.next env p trap (resume w.d.current (value, kernel'))).frames = [] := by
    simp only [Watched.next, Handling.framesAfter, isCreate, signalCalled, if_pos fills]
  have now : (w.next env p trap (resume w.d.current (value, kernel'))).now =
      { esp := ((resume w.d.current (value, kernel')).kernel.proctab p).esp, ret := none } := by
    simp only [Watched.next, Watched.after, isCreate, signalCalled, if_pos fills]
  have older : (w.next env p trap (resume w.d.current (value, kernel'))).older.length = 0 := by
    rw [← faithful'.older.length_eq, frames, List.length_nil]
  refine ⟨frames, faithful', alive, Nat.zero_le _, ⟨_, levels_top older.symm [] _, ?_, ?_⟩, of_mem_none,
    found⟩
  · rw [now]
    exact esp
  · rw [now]
    exact of_mem_none

/-- `s` is at the start of the function of a process, whose stack is empty but for the address to
which the function returns. -/
structure ProcessEntered (env : Env) (fp top : Word) (s : State Static Memory) : Prop where
  regs : ∃ eax, s.regs =
    { eax := eax
      ecx := filler 0xA5
      edx := filler 0xA5
      ebx := filler 0xA5
      esp := top
      ebp := top
      esi := filler 0xA5
      edi := filler 0xA5
      eip := fp
      cs := env.getCS
      eflags := STARTING_EFLAGS }
  returnAddr : loadWord s.mem top = env.sysstop

/-- In a run that is transparent to it and spares its first frame, a process that is created starts,
when it runs while no frame of a handler is on its stack, at its function and with `sysstop` as the
return address. -/
theorem process_entered {env : Env} {p : Slot} {fp stack block : Word} {start : Dispatcher}
    {before after : List Trap} {trap : Trap} {round : Round} {w w' : Watched}
    (transparent : Along (Watched.step env p) (Transparent p) (Watched.start p start)
      (before ++ trap :: after))
    (reached : run (Watched.step env p) (Watched.start p start) before = some w)
    (isCreate : w.d.request trap = .create fp stack)
    (new : newStack (w.d.entered trap) (.create fp stack) = some (p, block))
    (spares : ∀ w₁, w.step env p trap = some w₁ → Along (Watched.step env p)
      (Spares env p 0 (startTop stack block - sizeofContextFrame) 12) w₁ after)
    (continued : run (Watched.step env p) w (trap :: after) = some w')
    (runs : w'.d.current = p) (returned : w'.frames = [])
    (apart : Apart round.kernelStack 36 (w'.d.kernel.proctab w'.d.current).esp 48) :
    ProcessEntered env fp (startTop stack block) (round.switchIn w'.d.kernel w'.d.current) := by
  rw [runs] at apart ⊢
  obtain ⟨along, alongBehind⟩ := along_append transparent reached
  have faithful := faithful_reached along reached
  obtain ⟨w₁, stepped, rest⟩ := run_cons_eq_some.mp continued
  obtain ⟨_, suspended⟩ := Suspended.creation faithful alongBehind.1 isCreate new stepped
  have waits := suspended.run (alongBehind.2 _ stepped) (spares _ stepped) rest
  obtain ⟨esp, _, found⟩ := waits.resumes (by rw [returned, List.length_nil])
  have split := words_split [filler 0xA5, filler 0xA5, startTop stack block,
    startTop stack block, filler 0xA5, filler 0xA5, filler 0xA5, filler 0xA5, fp, env.getCS,
    STARTING_EFLAGS] [env.sysstop] found
  rw [← esp] at split
  obtain ⟨frame, behind⟩ := split
  have top : (w'.d.kernel.proctab p).esp + 44 = startTop stack block := by
    rw [esp]
    exact BitVec.sub_add_cancel _ _
  have regs := Round.switchIn_regs (apart.symm.first (by decide)).symm
  rw [resumed_words frame, top] at regs
  have kept := Round.switchIn_behind 1 apart (by decide) rfl
  have above := kept.trans behind
  rw [top] at above
  exact ⟨⟨_, regs⟩, (List.cons.inj above).1⟩

def startedYield : Trap :=
  sysyield { sampleFrame with mem := initialFrame sampleEnv sampleFrame.mem 0x15690 0x5000 }

theorem process_entered_third : ∃ (start : Dispatcher) (w w' : Watched),
    boot sampleEnv = some start ∧
    run (Watched.step sampleEnv 3) (Watched.start 3 start) [sysyield sampleFrame] = some w ∧
    run (Watched.step sampleEnv 3) w
      [syscreate sampleFrame 0x5000 0, startedYield, startedYield] = some w' ∧
    w'.d.current = 3 ∧
    ProcessEntered sampleEnv 0x5000 0x156BC
      ((sampleRound .timer).switchIn w'.d.kernel w'.d.current) := by
  have check : ∃ start ∈ boot sampleEnv,
      Along (Watched.step sampleEnv 3)
        (fun w trap => SignalsInPlace 3 w trap ∧ w.d.request trap ≠ .timer) (Watched.start 3 start)
          ([sysyield sampleFrame] ++ syscreate sampleFrame 0x5000 0 ::
            [startedYield, startedYield]) ∧
      ∃ w ∈ run (Watched.step sampleEnv 3) (Watched.start 3 start) [sysyield sampleFrame],
        w.d.request (syscreate sampleFrame 0x5000 0) = .create 0x5000 0 ∧
        newStack (w.d.entered (syscreate sampleFrame 0x5000 0)) (.create 0x5000 0) =
          some (3, 0x116C0) ∧
        (∃ w₁ ∈ Watched.step sampleEnv 3 w (syscreate sampleFrame 0x5000 0),
          Along (Watched.step sampleEnv 3)
            (Spares sampleEnv 3 0 (startTop 0 0x116C0 - sizeofContextFrame) 12) w₁
              [startedYield, startedYield]) ∧
        ∃ w' ∈ run (Watched.step sampleEnv 3) w
          [syscreate sampleFrame 0x5000 0, startedYield, startedYield],
          w'.d.current = 3 ∧ w'.frames = [] ∧
          Apart (sampleRound .timer).kernelStack 36 (w'.d.kernel.proctab w'.d.current).esp 48 := by
    decide +kernel
  obtain ⟨start, booted, along, w, reached, isCreate, new, ⟨w₁, stepped, spares⟩, w', continued,
    runs, returned, apart⟩ := check
  have transparent : Along (Watched.step sampleEnv 3) (Transparent 3) (Watched.start 3 start)
      ([sysyield sampleFrame] ++ syscreate sampleFrame 0x5000 0 :: [startedYield, startedYield]) :=
    along_imp (fun w trap inPlace =>
      ⟨inPlace.1, fun isTimer => absurd isTimer inPlace.2⟩) along
  have spares' : ∀ w₂, Watched.step sampleEnv 3 w (syscreate sampleFrame 0x5000 0) = some w₂ →
      Along (Watched.step sampleEnv 3)
        (Spares sampleEnv 3 0 (startTop 0 0x116C0 - sizeofContextFrame) 12) w₂
          [startedYield, startedYield] := by
    intro w₂ stepped'
    rw [stepped] at stepped'
    cases stepped'
    exact spares
  have entered := process_entered transparent reached isCreate new spares' continued runs returned
    apart
  have top : startTop 0 0x116C0 = 0x156BC := by decide +kernel
  rw [top] at entered
  exact ⟨start, w, w', booted, reached, continued, runs, entered⟩

/-! Calls. -/

theorem Suspended.called {evec : TrapNo → Word} (faithful : Faithful p w)
    (transparent : Transparent p w (round.trap evec)) (isCurrent : w.d.current = p)
    (alive : (w.d.kernel.proctab p).state ≠ .stopped)
    (goesOn : w.d.request (round.trap evec) ≠ .stop)
    (notReturn : ∀ old_sp old_ret sigLvl,
      w.d.request (round.trap evec) ≠ .sigreturn old_sp old_ret sigLvl)
    (stops : Apart round.kernelStack 36 round.frame 44)
    (clear : ∀ block ∈ (w.d.request (round.trap evec)).blocks env (w.d.entered (round.trap evec)) p,
      Apart block.1 block.2 round.frame 44)
    (stepped : w.step env p (round.trap evec) = some w') :
    Suspended p w.frames.length round.frame none round.frame round.regs.saved w' := by
  have faithful' := faithful.step transparent stepped
  obtain ⟨d', dispatched, rfl⟩ := Option.map_eq_some_iff.mp stepped
  have served := dispatched
  rw [Dispatcher.dispatch_eq] at served
  have alive' := (serve_state (fun _ => goesOn) served).alive
    ((entered_state w.d (round.trap evec) p).symm ▸ alive)
  have kept : words d'.kernel.mem round.frame 11 = round.regs.saved := by
    rw [isCurrent] at served
    rw [(serve_writes served).words clear, entered_mem_eq]
    exact Round.words_frame evec stops
  have length : w.older.length = w.frames.length := faithful.older.length_eq.symm
  have answered : (w.answered env p (round.trap evec) d').esp = round.frame := by
    rw [Watched.answered, Watched.entered, if_pos isCurrent]
    rfl
  have levels : (w.next env p (round.trap evec) d').levels =
      (w.after env p (round.trap evec) d').2.reverse ++
        [(w.after env p (round.trap evec) d').1] := rfl
  have frames' : (w.next env p (round.trap evec) d').frames =
      w.framesAfter p (round.trap evec) d' := rfl
  rcases w.after_cases env p (round.trap evec) d' with ⟨frame, now, after, frames⟩ |
    ⟨_, ⟨_, _, _, isReturn⟩, _⟩ | stopped | ⟨after, frames⟩
  · -- a handler runs first
    rw [after, List.reverse_cons, List.append_assoc] at levels
    rw [frames] at frames'
    refine ⟨faithful', alive', ?_, ⟨_, ?_, answered, of_mem_none⟩, of_mem_none, kept⟩
    · rw [frames', List.length_cons]
      omega
    · rw [levels]
      exact levels_top length.symm _ _
  · exact absurd isReturn (notReturn _ _ _)
  · exact absurd stopped alive
  · rw [after] at levels
    rw [frames] at frames'
    refine ⟨faithful', alive', ?_, ⟨_, ?_, answered, of_mem_none⟩, of_mem_none, kept⟩
    · rw [frames']
    · rw [levels]
      exact levels_top length.symm _ _

/-- In a run that is transparent to the process, a call returns with all registers as they were but
for `eax`, which has the result of the call, once the handlers have returned, if the frame of the
process is spared, by the kernel in the call itself too. -/
theorem call_returned {env : Env} {evec : TrapNo → Word} {p : Slot} {start : Dispatcher}
    {before after : List Trap} {round round' : Round} {w w' : Watched}
    (transparent : Along (Watched.step env p) (Transparent p) (Watched.start p start)
      (before ++ round.trap evec :: after))
    (reached : run (Watched.step env p) (Watched.start p start) before = some w)
    (isCurrent : w.d.current = p) (alive : (w.d.kernel.proctab p).state ≠ .stopped)
    (goesOn : w.d.request (round.trap evec) ≠ .stop)
    (notReturn : ∀ old_sp old_ret sigLvl,
      w.d.request (round.trap evec) ≠ .sigreturn old_sp old_ret sigLvl)
    (stackKept : StackKept w.d round)
    (clear : ∀ block ∈ (w.d.request (round.trap evec)).blocks env (w.d.entered (round.trap evec)) p,
      Apart block.1 block.2 round.frame 44)
    (spares : ∀ w₁, w.step env p (round.trap evec) = some w₁ →
      Along (Watched.step env p) (Spares env p w.frames.length round.frame 11) w₁ after)
    (continued : run (Watched.step env p) w (round.trap evec :: after) = some w')
    (runs : w'.d.current = p) (returned : w'.frames.length = w.frames.length)
    (apart : Apart round'.kernelStack 36 (w'.d.kernel.proctab w'.d.current).esp 44) :
    ∃ value, (round'.switchIn w'.d.kernel w'.d.current).regs = { round.regs with eax := value } ∧
      ∀ result ∈ w'.now.ret, value = result := by
  rw [runs] at apart ⊢
  obtain ⟨along, alongBehind⟩ := along_append transparent reached
  have faithful := faithful_reached along reached
  obtain ⟨w₁, stepped, rest⟩ := run_cons_eq_some.mp continued
  have suspended := Suspended.called faithful alongBehind.1 isCurrent alive goesOn notReturn
    stackKept.stops clear stepped
  have waits := suspended.run (alongBehind.2 _ stepped) (spares _ stepped) rest
  obtain ⟨esp, _, frame⟩ := waits.resumes returned
  exact ⟨_, interrupted_regs esp rfl frame apart, waits.faithful.now.2⟩

def yieldRound : Round :=
  { sampleRound .kernel with regs := { processSample with eax := 11 } }

def yieldBack : Trap :=
  sysyield { sampleFrame with esp := 0x70000, mem := (yieldRound.trap sampleEvec).mem }

theorem call_returned_yield : ∃ (start : Dispatcher) (w' : Watched),
    boot sampleEnv = some start ∧
    run (Watched.step sampleEnv 1) (Watched.start 1 start)
      [yieldRound.trap sampleEvec, yieldBack] = some w' ∧
    w'.d.current = 1 ∧
    ∃ value, (yieldRound.switchIn w'.d.kernel w'.d.current).regs =
      { processSample with eax := value } := by
  have check : ∃ start ∈ boot sampleEnv, start.current = 1 ∧
      (start.kernel.proctab 1).state ≠ .stopped ∧
      start.request (yieldRound.trap sampleEvec) = .yield ∧ StackKept start yieldRound ∧
      Along (Watched.step sampleEnv 1)
        (fun w trap => SignalsInPlace 1 w trap ∧ w.d.request trap ≠ .timer)
        (Watched.start 1 start) [yieldRound.trap sampleEvec, yieldBack] ∧
      (∃ w₁ ∈ Watched.step sampleEnv 1 (Watched.start 1 start) (yieldRound.trap sampleEvec),
        Along (Watched.step sampleEnv 1) (Spares sampleEnv 1 0 yieldRound.frame 11) w₁
          [yieldBack]) ∧
      ∃ w' ∈ run (Watched.step sampleEnv 1) (Watched.start 1 start)
        [yieldRound.trap sampleEvec, yieldBack],
        w'.d.current = 1 ∧ w'.frames.length = 0 ∧
        Apart yieldRound.kernelStack 36 (w'.d.kernel.proctab w'.d.current).esp 44 := by
    decide +kernel
  obtain ⟨start, booted, isCurrent, alive, isYield, stackKept, along, ⟨w₁, stepped, spares⟩, w',
    reached, runs, returned, apart⟩ := check
  have transparent : Along (Watched.step sampleEnv 1) (Transparent 1) (Watched.start 1 start)
      ([] ++ yieldRound.trap sampleEvec :: [yieldBack]) :=
    along_imp (fun w trap inPlace =>
      ⟨inPlace.1, fun isTimer => absurd isTimer inPlace.2⟩) along
  have first : run (Watched.step sampleEnv 1) (Watched.start 1 start) [] =
      some (Watched.start 1 start) := rfl
  have spares' : ∀ w₂, Watched.step sampleEnv 1 (Watched.start 1 start)
      (yieldRound.trap sampleEvec) = some w₂ →
      Along (Watched.step sampleEnv 1) (Spares sampleEnv 1 0 yieldRound.frame 11) w₂
        [yieldBack] := by
    intro w₂ stepped'
    rw [stepped] at stepped'
    cases stepped'
    exact spares
  have request : (Watched.start 1 start).d.request (yieldRound.trap sampleEvec) = .yield := isYield
  obtain ⟨value, regs, _⟩ := call_returned transparent first isCurrent alive (by simp [request])
    (by simp [request]) stackKept (by simp [request, Request.blocks]) spares' reached runs returned
    apart
  exact ⟨start, w', booted, reached, runs, value, regs⟩

end XerosKernel
