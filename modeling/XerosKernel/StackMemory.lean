import XerosKernel.HeapFrame
import XerosKernel.HeapRuns
import XerosKernel.PidRange

/-!
The memory of the stacks. `create` takes a block for every process it creates, and nothing in the
kernel gives one back, so the blocks that are in use are the stacks of all processes that ever were.
-/

namespace XerosKernel

open Execution

def newStack (kernel : Kernel) : Request → Option (Slot × Word)
  | .create _ stackSize =>
      match (createSearch kernel MAX_PROC kernel.nextpid).2,
        kmalloc kernel.heap (stackNeed stackSize) with
      | some p, some (block, _) => if block = 0 then none else some (p, block)
      | _, _ => none
  | _ => none

def heapCalls (kernel : Kernel) : Request → List HeapCall
  | .create _ stackSize =>
      if (createSearch kernel MAX_PROC kernel.nextpid).2 = none then []
      else [.malloc (stackNeed stackSize)]
  | _ => []

def stackHeader (stack : Slot × Word) : Word := stack.2 - sizeofMemHeader

/-- A run with its calls of the memory manager and with the stacks that `create` obtained, the last
one first. -/
structure StackHistory where
  d : Dispatcher
  calls : List HeapCall
  obtained : List (Slot × Word)

namespace StackHistory

def after (history : StackHistory) (trap : Trap) (d : Dispatcher) : StackHistory where
  d := d
  calls := history.calls ++ heapCalls (history.d.entered trap) (history.d.request trap)
  obtained := (newStack (history.d.entered trap) (history.d.request trap)).toList ++
    history.obtained

def step (env : Env) (history : StackHistory) (trap : Trap) : Option StackHistory :=
  (dispatch env history.d trap).map (history.after trap)

def deviceCalls : List HeapCall :=
  [.malloc sizeofDevsw, .malloc sizeofDevsw, .malloc sizeofDevsw]

/-- The record of `initproc`, which creates two processes, one in `idle` and one in `init`. -/
def initial (env : Env) (idle init : Kernel) (d : Dispatcher) : StackHistory where
  d := d
  calls := deviceCalls ++ heapCalls idle (.create env.idleproc PROC_STACK) ++
    heapCalls init (.create env.initProgram PROC_STACK)
  obtained := (newStack init (.create env.initProgram PROC_STACK)).toList ++
    (newStack idle (.create env.idleproc PROC_STACK)).toList

def boot (env : Env) : Option StackHistory := do
  let heap ← initDevices (kmeminit env)
  let idle := dispatchinit env heap
  let (_, init) ← create env idle env.idleproc PROC_STACK
  let (_, kernel) ← create env init env.initProgram PROC_STACK
  let d ← reschedule kernel
  some (initial env idle init d)

def HasStack (history : StackHistory) (i : Slot) : Prop := ∃ block, (i, block) ∈ history.obtained

/-- The memory manager was only asked for memory; what it gave out and never got back are the stacks
that `create` obtained and at most three blocks for the devices. Every process that shows up has a
stack. -/
structure Accounts (env : Env) (history : StackHistory) : Prop where
  takes : ∀ call ∈ history.calls, ∃ size, call = .malloc size
  outstanding : ∃ devices : List Word, devices.length ≤ 3 ∧
    run (HeapState.step env) (HeapState.start env) history.calls =
      some ⟨history.d.kernel.heap, history.obtained.map stackHeader ++ devices⟩
  confined : Confined history.HasStack history.d.kernel
  current : history.HasStack history.d.current

end StackHistory

variable {env : Env} {kernel kernel' : Kernel} {p : Slot} {ports : Ports} {request : Request}
  {fp stackSize value : Word} {d d' : Dispatcher} {history history' : StackHistory}

/-! Creation. -/

theorem newStack_full (fp stackSize : Word)
    (full : (createSearch kernel MAX_PROC kernel.nextpid).2 = none) :
    newStack kernel (.create fp stackSize) = none := by
  rw [newStack, full]

theorem newStack_found {i : Slot} {block : Word} {heap : Heap} (fp : Word)
    (found : (createSearch kernel MAX_PROC kernel.nextpid).2 = some i)
    (allocated : kmalloc kernel.heap (stackNeed stackSize) = some (block, heap)) :
    newStack kernel (.create fp stackSize) = if block = 0 then none else some (i, block) := by
  rw [newStack, found, allocated]

theorem create_newStack (created : create env kernel fp stackSize = some (value, kernel')) :
    ((newStack kernel (.create fp stackSize) = none ∧ Outside kernel kernel') ∨
      ∃ i block base, newStack kernel (.create fp stackSize) = some (i, block) ∧
        Outside kernel base ∧ kernel' = ready (base.modify i fun pcb =>
          { pcb with
            esp := block + stackNeed stackSize - 4 - sizeofContextFrame
            state := .ready
            pid := value }) i) ∧
    ∀ live, run (HeapState.step env) ⟨kernel.heap, live⟩ (heapCalls kernel (.create fp stackSize)) =
      some ⟨kernel'.heap,
        (newStack kernel (.create fp stackSize)).toList.map stackHeader ++ live⟩ := by
  simp only [create] at created
  split at created
  · rename_i full
    cases created
    rw [newStack_full fp stackSize full, heapCalls, if_pos full]
    exact ⟨Or.inl ⟨rfl, rfl, rfl, rfl, rfl, rfl, rfl⟩, fun live => rfl⟩
  · rename_i i found
    cases allocated : kmalloc kernel.heap (stackNeed stackSize) with
    | none =>
        rw [allocated] at created
        cases created
    | some result =>
        obtain ⟨block, heap⟩ := result
        rw [allocated] at created
        have taken : ∀ live, run (HeapState.step env) ⟨kernel.heap, live⟩
            (heapCalls kernel (.create fp stackSize)) = some ⟨heap,
              if block = 0 then live else (block - sizeofMemHeader) :: live⟩ := by
          intro live
          have some' : (createSearch kernel MAX_PROC kernel.nextpid).2 ≠ none := by
            rw [found]
            exact Option.some_ne_none i
          rw [heapCalls, if_neg some']
          simp only [run, HeapState.step, allocated, Option.map_some, Option.bind_some]
        rw [newStack_found fp found allocated]
        by_cases refused : block = 0
        · simp only [if_pos refused] at created taken
          cases created
          rw [if_pos refused]
          exact ⟨Or.inl ⟨rfl, rfl, rfl, rfl, rfl, rfl, rfl⟩, taken⟩
        · simp only [if_neg refused] at created taken
          cases created
          rw [if_neg refused]
          refine ⟨Or.inr ⟨i, block, _, rfl, ?_, rfl⟩, fun live => ?_⟩
          · exact ⟨rfl, rfl, rfl, rfl, rfl, rfl⟩
          · rw [taken, ready_heap]
            rfl

theorem create_confined {named : Slot → Prop} (confined : Confined named kernel)
    (new : ∀ stack ∈ newStack kernel (.create fp stackSize), named stack.1)
    (created : create env kernel fp stackSize = some (value, kernel')) :
    Confined named kernel' := by
  rcases (create_newStack created).1 with ⟨_, outside⟩ | ⟨i, block, base, obtained, outside, rfl⟩
  · exact confined.outside outside
  · have isNamed : named i := new (i, block) obtained
    exact (confined.filled outside isNamed _ value).ready isNamed

theorem serve_newStack (served : serve env kernel p ports request = some d) (live : List Word) :
    run (HeapState.step env) ⟨kernel.heap, live⟩ (heapCalls kernel request) =
      some ⟨d.kernel.heap, (newStack kernel request).toList.map stackHeader ++ live⟩ := by
  rcases serve_creates served with ⟨fp, stack, value, kernel', rfl, created, rfl⟩ | other
  · exact (create_newStack created).2 live
  · rw [serve_heap other served]
    cases request with
    | create fp stack => exact absurd rfl (other fp stack)
    | _ => rfl

theorem serve_confined {named : Slot → Prop} (confined : Confined named kernel)
    (isNamed : named p) (new : ∀ stack ∈ newStack kernel request, named stack.1)
    (served : serve env kernel p ports request = some d) :
    Confined named d.kernel ∧ named d.current := by
  rcases serve_creates served with ⟨fp, stack, value, kernel', rfl, created, rfl⟩ | other
  · exact ⟨(create_confined confined new created).touches
      (resume_private kernel' p value).toTouches, isNamed⟩
  · exact (serve_keepsNames other served).confined confined isNamed

/-! Runs. -/

namespace StackHistory

theorem heapCalls_takes (kernel : Kernel) (request : Request) :
    ∀ call ∈ heapCalls kernel request, ∃ size, call = .malloc size := by
  cases request with
  | create fp stackSize =>
      intro call isIn
      rw [heapCalls] at isIn
      split at isIn
      · cases isIn
      · exact ⟨_, List.mem_singleton.mp isIn⟩
  | _ => exact fun call isIn => absurd isIn List.not_mem_nil

theorem Accounts.dispatch {trap : Trap} (accounts : Accounts env history)
    (stepped : dispatch env history.d trap = some d) :
    history.obtained <:+ (history.after trap d).obtained ∧ Accounts env (history.after trap d) := by
  obtain ⟨takes, ⟨devices, few, reached⟩, confined, current⟩ := accounts
  rw [Dispatcher.dispatch_eq] at stepped
  have kept : ∀ i, history.HasStack i → (history.after trap d).HasStack i := by
    rintro i ⟨block, isIn⟩
    exact ⟨block, List.mem_append_right _ isIn⟩
  have new : ∀ stack ∈ newStack (history.d.entered trap) (history.d.request trap),
      (history.after trap d).HasStack stack.1 := by
    intro stack obtained
    exact ⟨stack.2, List.mem_append_left _ (Option.mem_toList.mpr obtained)⟩
  have entered := (confined.mono kept).touches
    (contextswitch_private history.d.kernel history.d.current trap).toTouches
  obtain ⟨confined', current'⟩ := serve_confined entered (kept _ current) new stepped
  refine ⟨List.suffix_append _ _, ?_, ⟨devices, few, ?_⟩, confined', current'⟩
  · intro call isIn
    rcases List.mem_append.mp isIn with before | now
    · exact takes call before
    · exact heapCalls_takes _ _ call now
  · have served := serve_newStack stepped (history.obtained.map stackHeader ++ devices)
    rw [entered_heap] at served
    rw [after, run_append, reached, Option.bind_some, served, List.map_append, List.append_assoc]

theorem initDevices_run {heap : Heap} (allocated : initDevices (kmeminit env) = some heap) :
    ∃ devices : List Word, devices.length ≤ 3 ∧
      run (HeapState.step env) (HeapState.start env) deviceCalls = some ⟨heap, devices⟩ := by
  simp only [initDevices, Option.bind_eq_bind, Option.bind_eq_some_iff, Prod.exists] at allocated
  obtain ⟨block, first, given, block', second, given', block'', third, given'', result⟩ := allocated
  cases result
  have record : ∀ (block : Word) (live : List Word) (n : Nat), live.length ≤ n →
      (if block = 0 then live else (block - sizeofMemHeader) :: live).length ≤ n + 1 := by
    intro block live n few
    split
    · exact Nat.le_succ_of_le few
    · exact Nat.succ_le_succ few
  refine ⟨_, record block'' _ 2 (record block' _ 1 (record block [] 0 (Nat.le_refl 0))), ?_⟩
  simp only [deviceCalls, run, HeapState.step, HeapState.start, given, given', given'',
    Option.map_some, Option.bind_some]

theorem boot_accounts (booted : XerosKernel.boot env = some d) :
    ∃ first, StackHistory.boot env = some first ∧ first.d = d ∧ Accounts env first := by
  simp only [XerosKernel.boot, Option.bind_eq_bind, Option.bind_eq_some_iff, Prod.exists] at booted
  obtain ⟨heap, allocated, value, init, created, value', kernel, created', popped⟩ := booted
  obtain ⟨devices, few, reached⟩ := initDevices_run allocated
  have shown : Confined (initial env (dispatchinit env heap) init d).HasStack d.kernel ∧
      (initial env (dispatchinit env heap) init d).HasStack d.current := by
    have empty : Confined (initial env (dispatchinit env heap) init d).HasStack
        (dispatchinit env heap) := by
      refine ⟨?_, ?_, ?_, ?_⟩
      · simp [dispatchinit]
      · simp [dispatchinit]
      · simp [dispatchinit, Kernel.link]
      · simp [dispatchinit]
    have first := create_confined empty (fun stack obtained => ⟨stack.2,
      List.mem_append_right _ (Option.mem_toList.mpr obtained)⟩) created
    have second := create_confined first (fun stack obtained => ⟨stack.2,
      List.mem_append_left _ (Option.mem_toList.mpr obtained)⟩) created'
    exact second.reschedule popped
  refine ⟨initial env (dispatchinit env heap) init d, ?_, rfl, ?_, ⟨devices, few, ?_⟩, shown.1,
    shown.2⟩
  · simp only [StackHistory.boot, allocated, created, created', popped, Option.bind_eq_bind,
      Option.bind_some]
  · intro call isIn
    rcases List.mem_append.mp isIn with before | second
    · rcases List.mem_append.mp before with device | first
      · simp only [deviceCalls, List.mem_cons, List.not_mem_nil, or_false, or_self] at device
        exact ⟨_, device⟩
      · exact heapCalls_takes _ _ call first
    · exact heapCalls_takes _ _ call second
  · have popped' := (Rearranges.reschedule popped).heap
    have first := (create_newStack created).2 devices
    have second := (create_newStack created').2
      ((newStack (dispatchinit env heap) (.create env.idleproc PROC_STACK)).toList.map
        stackHeader ++ devices)
    rw [initial, run_append, run_append, reached, Option.bind_some]
    have start : (dispatchinit env heap).heap = heap := rfl
    rw [start] at first
    rw [first, Option.bind_some, second, popped', List.map_append, List.append_assoc]

theorem follows {first : StackHistory} {traps : List Trap} (accounts : Accounts env first)
    (reached : run (XerosKernel.dispatch env) first.d traps = some d) :
    ∃ history, run (step env) first traps = some history ∧ history.d = d ∧
      first.obtained <:+ history.obtained ∧ Accounts env history := by
  have matched : ∀ (history : StackHistory) (before : Dispatcher) trap (d : Dispatcher),
      (history.d = before ∧ first.obtained <:+ history.obtained ∧ Accounts env history) →
      dispatch env before (id trap) = some d → ∃ history', step env history trap = some history' ∧
        (history'.d = d ∧ first.obtained <:+ history'.obtained ∧ Accounts env history') := by
    rintro history before trap d ⟨rfl, grows, accounts⟩ stepped
    have stepped' : dispatch env history.d trap = some d := stepped
    obtain ⟨suffix, accounts'⟩ := accounts.dispatch stepped'
    refine ⟨_, by rw [step, stepped', Option.map_some], rfl, grows.trans suffix, accounts'⟩
  refine run_refines matched ⟨rfl, List.suffix_rfl, accounts⟩ ?_
  rw [List.map_id]
  exact reached

end StackHistory

/-- Whatever the processes of a run ask for, `kfree` is never called: the blocks that `create`
obtained are in use for good, for the stacks of processes that have ended as for those of the
processes that have not. -/
theorem stacks_outstanding {env : Env} {before after : List Trap} {d d' : Dispatcher}
    (reaches : Reaches env anyRequest before d)
    (continued : run (dispatch env) d after = some d') :
    ∃ first history history', StackHistory.boot env = some first ∧
      run (StackHistory.step env) first before = some history ∧ history.d = d ∧
      run (StackHistory.step env) history after = some history' ∧ history'.d = d' ∧
      history.obtained <:+ history'.obtained ∧
      (∀ call ∈ history'.calls, ∃ size, call = .malloc size) ∧
      (∃ devices : List Word, devices.length ≤ 3 ∧
        run (HeapState.step env) (HeapState.start env) history'.calls =
          some ⟨d'.kernel.heap, history'.obtained.map stackHeader ++ devices⟩) ∧
      ∀ i, (d'.kernel.proctab i).state ≠ .stopped → ∃ block, (i, block) ∈ history'.obtained := by
  obtain ⟨start, booted, _, reached⟩ := reaches
  obtain ⟨first, recorded, rfl, accounts⟩ := StackHistory.boot_accounts booted
  obtain ⟨history, there, rfl, _, accounts'⟩ := StackHistory.follows accounts reached
  obtain ⟨history', further, rfl, kept, accounts''⟩ := StackHistory.follows accounts' continued
  exact ⟨first, history, history', recorded, there, rfl, further, rfl, kept, accounts''.takes,
    accounts''.outstanding, accounts''.confined.active⟩

def exhaustRun : List Trap :=
  [sysyield sampleFrame, syscreate sampleFrame 0x5000 0x80000, sysyield sampleFrame,
    sysyield sampleFrame, sysstop sampleFrame, syscreate sampleFrame 0x5000 0x260000,
    sysyield sampleFrame, sysyield sampleFrame, sysstop sampleFrame]

theorem stacks_outstanding_stop : ∃ (d d' : Dispatcher) (history : StackHistory),
    Reaches sampleEnv anyRequest creatorRun d ∧
    dispatch sampleEnv d (sysstop sampleFrame) = some d' ∧
    (d'.kernel.proctab d.current).state = .stopped ∧ history.HasStack d.current ∧
    ∃ devices : List Word, devices.length ≤ 3 ∧
      run (HeapState.step sampleEnv) (HeapState.start sampleEnv) history.calls =
        some ⟨d'.kernel.heap, history.obtained.map stackHeader ++ devices⟩ := by
  obtain ⟨d, reaches, live, d', stopped, ended⟩ := reaches_of_check sampleEnv anyRequest creatorRun
    (fun d => (d.kernel.proctab d.current).state ≠ .stopped ∧
      ∃ d' ∈ dispatch sampleEnv d (sysstop sampleFrame),
        (d'.kernel.proctab d.current).state = .stopped) (by decide +kernel)
  have continued : run (dispatch sampleEnv) d [sysstop sampleFrame] = some d' :=
    run_cons_eq_some.mpr ⟨d', stopped, rfl⟩
  have stays : run (dispatch sampleEnv) d [] = some d := rfl
  obtain ⟨first, history, _, booted, there, _, nothing, _, _, _, _, active⟩ :=
    stacks_outstanding reaches stays
  obtain ⟨first', _, history', booted', there', _, _, _, kept, _, outstanding, _⟩ :=
    stacks_outstanding reaches continued
  obtain ⟨block, isIn⟩ := active d.current live
  rw [booted] at booted'
  cases booted'
  rw [there] at there'
  cases there'
  cases nothing
  exact ⟨d, d', history', reaches, stopped, ended, ⟨block, kept.subset isIn⟩, outstanding⟩

/-- Only the first two processes are left, but the stacks of the two that have stopped are still in
use, and the next `create` finds no memory. -/
theorem stacks_outstanding_broken : ∃ first history d',
    StackHistory.boot sampleEnv = some first ∧
    run (StackHistory.step sampleEnv) first exhaustRun = some history ∧
    (∀ i, (history.d.kernel.proctab i).state ≠ .stopped → i = 1 ∨ i = 2) ∧
    (∃ block, (3, block) ∈ history.obtained ∧
      ∃ state, run (HeapState.step sampleEnv) (HeapState.start sampleEnv) history.calls =
        some state ∧ stackHeader (3, block) ∈ state.live) ∧
    dispatch sampleEnv history.d (syscreate sampleFrame 0x5000 0x80000) = some d' ∧
    (d'.kernel.proctab history.d.current).ret = CREATE_FAILURE := by
  have check : ∃ first ∈ StackHistory.boot sampleEnv,
      ∃ history ∈ run (StackHistory.step sampleEnv) first exhaustRun,
        (∀ i, (history.d.kernel.proctab i).state ≠ .stopped → i = 1 ∨ i = 2) ∧
        (∃ stack ∈ history.obtained, stack.1 = 3 ∧
          ∃ state ∈ run (HeapState.step sampleEnv) (HeapState.start sampleEnv) history.calls,
            stackHeader stack ∈ state.live) ∧
        ∃ d' ∈ dispatch sampleEnv history.d (syscreate sampleFrame 0x5000 0x80000),
          (d'.kernel.proctab history.d.current).ret = CREATE_FAILURE := by
    decide +kernel
  obtain ⟨first, booted, history, reached, alive, ⟨⟨i, block⟩, isIn, isThird, state, calls, held⟩,
    d', stepped, failed⟩ := check
  obtain rfl : i = 3 := isThird
  exact ⟨first, history, d', booted, reached, alive, ⟨block, isIn, state, calls, held⟩, stepped,
    failed⟩

end XerosKernel
