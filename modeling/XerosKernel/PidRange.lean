import XerosKernel.Creation
import XerosKernel.FreeList
import XerosKernel.ProcessIds
import XerosKernel.SignalFrames

/-!
The range of the process numbers. `nextpid` counts the rounds of all calls of `create` and wraps
around; a run in which it stays clear of the numbers that are not positive as an `int` gives out
positive numbers only.
-/

namespace XerosKernel

open Execution

section Create

variable {env : Env} {kernel kernel' : Kernel} {fp stackSize value : Word} {k : Nat}

theorem toInt_pos_iff (pid : Word) : 0 < pid.toInt ↔ 0 < pid.toNat ∧ pid.toNat < 2 ^ 31 := by
  rw [BitVec.toInt_eq_toNat_cond]
  split <;> omega

theorem number_pos_iff {nextpid : Word} (positive : 1 ≤ k) (bounded : k ≤ MAX_PROC) :
    0 < (nextpid + BitVec.ofNat 32 k).toInt ↔
      nextpid.toNat + k < 2 ^ 31 ∨ 2 ^ 32 < nextpid.toNat + k := by
  have slots : MAX_PROC = 64 := rfl
  have range := nextpid.isLt
  rw [toInt_pos_iff, BitVec.toNat_add, BitVec.toNat_ofNat]
  omega

theorem create_outcome (created : create env kernel fp stackSize = some (value, kernel')) :
    (∃ k ≤ MAX_PROC, kernel'.nextpid = kernel.nextpid + BitVec.ofNat 32 k) ∧
    (value = CREATE_FAILURE ∧ Outside kernel kernel' ∨
      ∃ k i base esp, FirstFree kernel k ∧ (kernel.proctab i).state = .stopped ∧
        value = kernel.nextpid + BitVec.ofNat 32 k ∧
        (¬ ∃ heap, kmalloc kernel.heap (stackNeed stackSize) = some (0, heap)) ∧
        Outside kernel base ∧ kernel' = ready (base.modify i fun pcb =>
          { pcb with esp := esp, state := .ready, pid := value }) i) := by
  rcases firstFree_or_busy kernel with ⟨k, found⟩ | busy
  · have counts : k ≤ MAX_PROC := found.bounded
    cases allocated : kmalloc kernel.heap (stackNeed stackSize) with
    | none =>
        simp only [create, found.search, allocated] at created
        cases created
    | some result =>
        obtain ⟨block, heap⟩ := result
        have outcome := create_found env fp found allocated
        by_cases none : block = 0
        · rw [if_pos none, created] at outcome
          cases outcome
          exact ⟨⟨k, counts, rfl⟩, Or.inl ⟨rfl, rfl, rfl, rfl, rfl, rfl, rfl⟩⟩
        · rw [if_neg none, created] at outcome
          obtain ⟨base, esp, counter, outside, same⟩ := outcome
          obtain ⟨rfl, rfl⟩ := Prod.mk.inj (Option.some.inj same)
          refine ⟨⟨k, counts, ?_⟩,
            Or.inr ⟨k, _, base, esp, found, found.free, rfl, ?_, outside, rfl⟩⟩
          · rw [ready_nextpid, Kernel.modify_nextpid, counter]
          · rintro ⟨other, fails⟩
            exact none (Prod.mk.inj (Option.some.inj fails)).1
  · rw [create_busy busy] at created
    cases created
    exact ⟨⟨MAX_PROC, Nat.le_refl _, rfl⟩, Or.inl ⟨rfl, rfl, rfl, rfl, rfl, rfl, rfl⟩⟩

end Create

/-- A successful `create` would not give out 0 or a number from 2^31 on: the counter stops below,
or it passes 0. -/
def PidFits (kernel : Kernel) (_ : Slot) : Request → Prop
  | .create _ stackSize => ∀ k, FirstFree kernel k →
      (∃ heap, kmalloc kernel.heap (stackNeed stackSize) = some (0, heap)) ∨
        kernel.nextpid.toNat + k < 2 ^ 31 ∨ 2 ^ 32 < kernel.nextpid.toNat + k
  | _ => True

def InUse (kernel : Kernel) (i : Slot) : Prop := (kernel.proctab i).pid ≠ 0

structure Positive (kernel : Kernel) : Prop where
  range : ∀ i, InUse kernel i → 0 < (kernel.proctab i).pid.toInt
  confined : Confined (InUse kernel) kernel

section Rounds

variable {env : Env} {kernel kernel' : Kernel} {p : Slot} {d d' : Dispatcher}

theorem Positive.live (positive : Positive kernel) {i : Slot}
    (live : (kernel.proctab i).state ≠ .stopped) : 0 < (kernel.proctab i).pid.toInt :=
  positive.range i (positive.confined.active i live)

theorem SamePids.inUse (same : SamePids kernel kernel') : InUse kernel' = InUse kernel := by
  funext i
  rw [InUse, same i, InUse]

theorem Positive.samePids (positive : Positive kernel) (same : SamePids kernel kernel')
    (confined : Confined (InUse kernel) kernel') : Positive kernel' := by
  refine ⟨fun i used => ?_, same.inUse ▸ confined⟩
  rw [same.inUse] at used
  rw [same i]
  exact positive.range i used

theorem KeepsNames.positive (keeps : KeepsNames p kernel d) (positive : Positive kernel)
    (inUse : InUse kernel p) : Positive d.kernel ∧ InUse d.kernel d.current := by
  obtain ⟨confined, current⟩ := keeps.confined positive.confined inUse
  exact ⟨positive.samePids keeps.pids confined, by rwa [keeps.pids.inUse]⟩

theorem create_positive {fp stackSize value : Word} (positive : Positive kernel)
    (fits : PidFits kernel p (.create fp stackSize))
    (created : create env kernel fp stackSize = some (value, kernel')) :
    Positive kernel' ∧ (∀ i, InUse kernel i → InUse kernel' i) ∧
      (value = CREATE_FAILURE ∧ kernel'.proctab = kernel.proctab ∨ 0 < value.toInt ∧
        ∃ i, (kernel'.proctab i).pid = value ∧ (kernel.proctab i).state = .stopped ∧
          (kernel'.proctab i).state = .ready) := by
  obtain ⟨_, ⟨failed, outside⟩ | ⟨k, i, base, esp, found, free, isPid, room, outside, rfl⟩⟩ :=
    create_outcome created
  · have same : SamePids kernel kernel' := fun i => by rw [outside.table]
    refine ⟨positive.samePids same (positive.confined.outside outside), ?_,
      Or.inl ⟨failed, outside.table⟩⟩
    intro i used
    rwa [same.inUse]
  · have inRange : 0 < value.toInt := by
      rw [isPid, number_pos_iff found.positive found.bounded]
      exact (fits k found).resolve_left room
    have pids : ∀ j, ((ready (base.modify i fun pcb =>
        { pcb with esp := esp, state := .ready, pid := value }) i).proctab j).pid =
        if j = i then value else (kernel.proctab j).pid := by
      intro j
      rw [ready_proctab, Kernel.modify_proctab, outside.table]
      split <;> rfl
    generalize filled : base.modify i (fun pcb =>
      { pcb with esp := esp, state := .ready, pid := value }) = middle at pids ⊢
    have new : InUse (ready middle i) i := by
      rw [InUse, pids, if_pos rfl]
      rintro rfl
      exact absurd inRange (by decide)
    have kept : ∀ j, InUse kernel j → InUse (ready middle i) j := by
      intro j used
      by_cases isNew : j = i
      · exact isNew ▸ new
      · rwa [InUse, pids, if_neg isNew]
    have confined : Confined (InUse (ready middle i)) (ready middle i) := by
      have written := (positive.confined.mono kept).filled outside new esp value
      rw [filled] at written
      exact written.ready new
    refine ⟨⟨fun j used => ?_, confined⟩, kept, Or.inr ⟨inRange, i, ?_, free, ?_⟩⟩
    · rw [pids]
      split
      · exact inRange
      · rename_i other
        rw [InUse, pids, if_neg other] at used
        exact positive.range j used
    · rw [pids, if_pos rfl]
    · simp [ready_proctab]

theorem serve_positive {ports : Ports} {request : Request} (positive : Positive kernel)
    (inUse : InUse kernel p) (fits : PidFits kernel p request)
    (served : serve env kernel p ports request = some d) :
    Positive d.kernel ∧ InUse d.kernel d.current := by
  rcases serve_creates served with ⟨fp, stack, value, kernel', rfl, created, rfl⟩ | other
  · obtain ⟨positive', kept, _⟩ := create_positive positive fits created
    have stays : KeepsNames p kernel' (resume p (value, kernel')) :=
      .stay (resume_private kernel' p value).toTouches rfl
    exact stays.positive positive' (kept p inUse)
  · exact (serve_keepsNames other served).positive positive inUse

theorem entered_positive (positive : Positive d.kernel) (inUse : InUse d.kernel d.current)
    (trap : Trap) : Positive (d.entered trap) ∧ InUse (d.entered trap) d.current := by
  have entered := (contextswitch_private d.kernel d.current trap).toTouches
  refine ⟨positive.samePids entered.samePids (positive.confined.touches entered), ?_⟩
  rwa [Dispatcher.entered, entered.samePids.inUse]

theorem boot_positive (booted : boot env = some d) :
    Positive d.kernel ∧ InUse d.kernel d.current := by
  simp only [boot, Option.bind_eq_bind, Option.bind_eq_some_iff, Prod.exists] at booted
  obtain ⟨heap, _, value, idle, created, value', kernel, created', popped⟩ := booted
  have start : Positive (dispatchinit env heap) :=
    ⟨fun i used => absurd rfl used, by simp [dispatchinit], by simp [dispatchinit],
      by simp [dispatchinit, Kernel.link], by simp [dispatchinit]⟩
  have slots : MAX_PROC = 64 := rfl
  have counter : (dispatchinit env heap).nextpid.toNat = 0 := rfl
  have first : PidFits (dispatchinit env heap) 0 (.create env.idleproc PROC_STACK) := by
    intro k found
    have bounded := found.bounded
    exact Or.inr (Or.inl (by omega))
  obtain ⟨⟨k, bounded, nextpid⟩, _⟩ := create_outcome created
  have second : PidFits idle 0 (.create env.initProgram PROC_STACK) := by
    intro j found
    have bounded' := found.bounded
    rw [nextpid, BitVec.toNat_add, counter, BitVec.toNat_ofNat]
    exact Or.inr (Or.inl (by omega))
  have filled := (create_positive (create_positive start first created).1 second created').1
  have keeps := (reschedule_requeues popped).samePids
  obtain ⟨confined, current⟩ := filled.confined.reschedule popped
  exact ⟨filled.samePids keeps confined, by rwa [keeps.inUse]⟩

theorem reaches_positive {traps : List Trap} (reaches : Reaches env PidFits traps d) :
    Positive d.kernel ∧ InUse d.kernel d.current := by
  obtain ⟨start, booted, along, reached⟩ := reaches
  have step : ∀ state trap after, Positive state.kernel ∧ InUse state.kernel state.current →
      Guarded PidFits state trap → dispatch env state trap = some after →
      Positive after.kernel ∧ InUse after.kernel after.current := by
    intro state trap after inv guarded stepped
    obtain ⟨positive, inUse⟩ := entered_positive inv.1 inv.2 trap
    exact serve_positive positive inUse guarded stepped
  exact run_invariant step (boot_positive booted) along reached

end Rounds

def NeverUsed (env : Env) (traps : List Trap) (j : Slot) : Prop :=
  ∀ front, front <+: traps → ∀ d, Reaches env anyRequest front d →
    (d.kernel.proctab j).state = .stopped

section Unused

variable {env : Env} {kernel kernel' : Kernel} {d d' : Dispatcher} {traps : List Trap} {j : Slot}

theorem create_unused {fp stackSize value : Word}
    (created : create env kernel fp stackSize = some (value, kernel'))
    (free : (kernel'.proctab j).state = .stopped) :
    (kernel.proctab j).state = .stopped ∧
      (kernel'.proctab j).pid = (kernel.proctab j).pid := by
  rcases create_cases created with outside | ⟨i, base, esp, pid, _, _, outside, rfl⟩
  · rw [outside.table] at free ⊢
    exact ⟨free, rfl⟩
  · rw [ready_proctab, Kernel.modify_proctab, outside.table] at free ⊢
    by_cases isNew : j = i
    · simp [isNew] at free
    · simp only [if_neg isNew] at free ⊢
      exact ⟨free, trivial⟩

theorem dispatch_unused {trap : Trap} (stepped : dispatch env d trap = some d')
    (free : (d'.kernel.proctab j).state = .stopped) :
    (d'.kernel.proctab j).pid = (d.kernel.proctab j).pid := by
  have entered := (contextswitch_private d.kernel d.current trap).toTouches.samePids j
  rw [Dispatcher.dispatch_eq] at stepped
  refine Eq.trans ?_ entered
  rcases serve_creates stepped with ⟨fp, stack, value, kernel', _, created, rfl⟩ | other
  · have resumed := (resume_private kernel' d.current value).toTouches
    rw [resumed.same (·.state) fun _ => rfl] at free
    exact (resumed.samePids j).trans (create_unused created free).2
  · exact (serve_keepsNames other stepped).pids j

theorem boot_unused (booted : boot env = some d) (free : (d.kernel.proctab j).state = .stopped) :
    (d.kernel.proctab j).pid = 0 := by
  simp only [boot, Option.bind_eq_bind, Option.bind_eq_some_iff, Prod.exists] at booted
  obtain ⟨heap, _, _, idle, created, _, kernel, created', popped⟩ := booted
  have moves := reschedule_requeues popped
  obtain ⟨idleFree, pid'⟩ := create_unused created' (moves.stopped j free)
  obtain ⟨_, pid⟩ := create_unused created idleFree
  exact (moves.samePids j).trans (pid'.trans pid)

theorem run_unused {start : Dispatcher} (zero : (start.kernel.proctab j).pid = 0)
    (unused : ∀ front, front <+: traps → ∀ d, run (dispatch env) start front = some d →
      (d.kernel.proctab j).state = .stopped)
    (reached : run (dispatch env) start traps = some d) : (d.kernel.proctab j).pid = 0 := by
  induction traps generalizing start with
  | nil =>
      simp only [run, Option.some.injEq] at reached
      exact reached ▸ zero
  | cons trap rest ih =>
      obtain ⟨after, stepped, tail⟩ := run_cons_eq_some.mp reached
      have free : (after.kernel.proctab j).state = .stopped := by
        refine unused [trap] (List.prefix_append [trap] rest) after ?_
        exact run_cons_eq_some.mpr ⟨after, stepped, rfl⟩
      refine ih ((dispatch_unused stepped free).trans zero) ?_ tail
      intro front isFront middle reached'
      refine unused (trap :: front) ?_ middle (run_cons_eq_some.mpr ⟨after, stepped, reached'⟩)
      exact (List.prefix_cons_inj trap).mpr isFront

theorem NeverUsed.pid (unused : NeverUsed env traps j)
    (reaches : Reaches env anyRequest traps d) : (d.kernel.proctab j).pid = 0 := by
  obtain ⟨start, booted, _, reached⟩ := reaches
  have whole : ∀ front, front <+: traps → ∀ d, run (dispatch env) start front = some d →
      (d.kernel.proctab j).state = .stopped :=
    fun front isFront d reached => unused front isFront d ⟨start, booted, along_true, reached⟩
  have free := whole [] List.nil_prefix start rfl
  exact run_unused (boot_unused booted free) whole reached

end Unused

/-- Where every number that is given out fits, a process has a positive number, which no unused
slot shows, and a call of `create` that adds one returns it. -/
theorem pids_positive {env : Env} {traps : List Trap} {d : Dispatcher}
    (reaches : Reaches env PidFits traps d) :
    (∀ i, (d.kernel.proctab i).state ≠ .stopped → 0 < (d.kernel.proctab i).pid.toInt) ∧
    (∀ i j, (d.kernel.proctab i).state ≠ .stopped → NeverUsed env traps j →
      (d.kernel.proctab i).pid ≠ (d.kernel.proctab j).pid) ∧
    ∀ trap d' fp stack, Guarded PidFits d trap → d.request trap = .create fp stack →
      dispatch env d trap = some d' →
      (d'.kernel.proctab d.current).ret = CREATE_FAILURE ∧
        (∀ i, (d'.kernel.proctab i).state = (d.kernel.proctab i).state) ∨
      0 < (d'.kernel.proctab d.current).ret.toInt ∧
        ∃ i, (d'.kernel.proctab i).pid = (d'.kernel.proctab d.current).ret ∧
          (d.kernel.proctab i).state = .stopped ∧ (d'.kernel.proctab i).state = .ready := by
  obtain ⟨positive, inUse⟩ := reaches_positive reaches
  refine ⟨fun i => positive.live, fun i j live unused same => ?_, ?_⟩
  · obtain ⟨start, booted, _, reached⟩ := reaches
    have zero := unused.pid ⟨start, booted, along_true, reached⟩
    have inRange := positive.live live
    rw [same, zero] at inRange
    exact absurd inRange (by decide)
  · intro trap d' fp stack guarded request stepped
    have entered := (contextswitch_private d.kernel d.current trap).toTouches
    have state : ∀ i, ((d.entered trap).proctab i).state = (d.kernel.proctab i).state :=
      fun i => entered.same (·.state) (fun _ => rfl) i
    rw [Dispatcher.dispatch_eq, request] at stepped
    rw [Guarded, request] at guarded
    obtain ⟨⟨value, kernel'⟩, created, rfl⟩ := Option.map_eq_some_iff.mp stepped
    have resumed := (resume_private kernel' d.current value).toTouches
    have outcome := (create_positive (entered_positive positive inUse trap).1 guarded created).2.2
    rw [show ((resume d.current (value, kernel')).kernel.proctab d.current).ret = value by
      simp [resume]]
    rcases outcome with ⟨failed, same⟩ | ⟨inRange, i, pid, free, isReady⟩
    · refine Or.inl ⟨failed, fun i => ?_⟩
      rw [resumed.same (·.state) fun _ => rfl, same, state]
    · refine Or.inr ⟨inRange, i, ?_, ?_, ?_⟩
      · rw [resumed.samePids i, pid]
      · rw [← state, free]
      · rw [resumed.same (·.state) fun _ => rfl, isReady]

section Samples

def hugeStack : Word := 0xf0000000

theorem Reaches.snoc {env : Env} {traps : List Trap} {trap : Trap} {d d' : Dispatcher}
    (reaches : Reaches env anyRequest traps d) (stepped : dispatch env d trap = some d') :
    Reaches env anyRequest (traps ++ [trap]) d' := by
  obtain ⟨start, booted, _, reached⟩ := reaches
  refine ⟨start, booted, along_true, ?_⟩
  rw [run_append, reached]
  exact run_cons_eq_some.mpr ⟨d', stepped, rfl⟩

theorem syscreate_request (d : Dispatcher) (stack : Word) :
    d.request (syscreate sampleFrame 0x5000 stack) = .create 0x5000 stack := by
  have first : loadWord (pushArgs sampleFrame.mem sampleFrame.ap [0x5000, stack])
      (sampleFrame.ap + 4 * 0#32) = 0x5000 := loadWord_storeWord _ _ _
  have second : loadWord (pushArgs sampleFrame.mem sampleFrame.ap [0x5000, stack])
      (sampleFrame.ap + 4 * 1#32) = stack :=
    (loadWord_storeWord_other (by decide) (by decide)).trans (loadWord_storeWord _ _ _)
  simp only [Dispatcher.request, Dispatcher.entered, contextswitch, syscreate, syscall, decode,
    vaArg, Kernel.modify_proctab, if_true, Kernel.modify_mem]
  exact congrArg₂ Request.create first second

/-- The counter is at `n`, the processes 1 and 2 are there, and the free list has room for an
ordinary stack but not for the huge one. -/
structure Counting (kernel : Kernel) (n : Nat) : Prop where
  nextpid : kernel.nextpid.toNat = n
  states : ∀ i, (kernel.proctab i).state = .stopped ↔ i ≠ 1 ∧ i ≠ 2
  full : kmalloc kernel.heap hugeStack = some (0, kernel.heap)
  room : (kmalloc kernel.heap PROC_STACK).any fun result : Word × Heap => decide (result.1 ≠ 0)

namespace Counting

variable {kernel kernel' : Kernel} {d : Dispatcher} {n : Nat}

theorem congr (counting : Counting kernel n) (nextpid : kernel'.nextpid = kernel.nextpid)
    (heap : kernel'.heap = kernel.heap)
    (state : ∀ i, (kernel'.proctab i).state = (kernel.proctab i).state) :
    Counting kernel' n where
  nextpid := nextpid ▸ counting.nextpid
  states := fun i => by rw [state, counting.states]
  full := by rw [heap, counting.full]
  room := heap ▸ counting.room

theorem entered (counting : Counting d.kernel n) (stack : Word) :
    Counting (d.entered (syscreate sampleFrame 0x5000 stack)) n :=
  counting.congr rfl rfl fun i => (contextswitch_private d.kernel d.current
    (syscreate sampleFrame 0x5000 stack)).toTouches.same (·.state) (fun _ => rfl) i

theorem free (counting : Counting kernel n) (k : Nat) :
    (kernel.proctab (slotAfter kernel.nextpid k)).state = .stopped ↔
      (n + k) % 64 ≠ 1 ∧ (n + k) % 64 ≠ 2 := by
  rw [counting.states, ne_eq, ne_eq, Fin.ext_iff, Fin.ext_iff, slotAfter_val, counting.nextpid]
  rfl

theorem firstFree (counting : Counting kernel n) (behind : n % 64 ≠ 1) :
    FirstFree kernel (if n % 64 = 0 then 3 else 1) := by
  have slots : MAX_PROC = 64 := rfl
  by_cases front : n % 64 = 0
  · rw [if_pos front]
    refine ⟨by omega, by omega, (counting.free 3).mpr (by omega), fun j positive below => ?_⟩
    rw [ne_eq, counting.free]
    omega
  · rw [if_neg front]
    refine ⟨by omega, by omega, (counting.free 1).mpr (by omega), fun j positive below => ?_⟩
    omega

theorem step (counting : Counting d.kernel n) (behind : n % 64 ≠ 1) (bound : n < 2 ^ 31) :
    ∃ d', dispatch sampleEnv d (syscreate sampleFrame 0x5000 hugeStack) = some d' ∧
      Counting d'.kernel (n + if n % 64 = 0 then 3 else 1) := by
  have inside := counting.entered hugeStack
  have found := inside.firstFree behind
  generalize rounds : (if n % 64 = 0 then 3 else 1) = k at found ⊢
  have few : k ≤ 3 := by split at rounds <;> omega
  have need : stackNeed hugeStack = hugeStack := by decide
  have created := create_found sampleEnv 0x5000 found (need ▸ inside.full)
  rw [if_pos rfl] at created
  refine ⟨_, by rw [Dispatcher.dispatch_eq, syscreate_request, serve, created, Option.map_some], ?_⟩
  refine ⟨?_, fun i => ?_, inside.full, inside.room⟩
  · have small : n + k < 2 ^ 32 := by omega
    rw [resume, Kernel.modify_nextpid, BitVec.toNat_add, inside.nextpid, BitVec.toNat_ofNat]
    omega
  · rw [← inside.states]
    exact iff_of_eq (congrArg (· = ProcState.stopped)
      (Kernel.modify_same _ d.current (fun pcb => { pcb with ret := CREATE_FAILURE }) (·.state)
        rfl i))

end Counting

theorem counting_start : ∃ d, Reaches sampleEnv anyRequest [] d ∧ Counting d.kernel 2 := by
  obtain ⟨d, reaches, found⟩ := reaches_of_check sampleEnv anyRequest []
    (fun d => d.kernel.nextpid.toNat = 2 ∧
      (∀ i, (d.kernel.proctab i).state = .stopped ↔ i ≠ 1 ∧ i ≠ 2) ∧
      FreeList d.kernel.heap [d.kernel.heap.memSlot, 0x196000] ∧
      chosenBlock d.kernel.heap hugeStack = none ∧
      (kmalloc d.kernel.heap PROC_STACK).any fun result : Word × Heap => decide (result.1 ≠ 0))
    (by decide +kernel)
  obtain ⟨nextpid, states, list, none, room⟩ := found
  exact ⟨d, reaches, nextpid, states, by rw [kmalloc_eq list.chain, none], room⟩

theorem counting_reach {n : Nat} (lower : 2 ≤ n) (upper : n < 2 ^ 31)
    (behind : n = 2 ∨ n % 64 ≠ 1 ∧ n % 64 ≠ 2) :
    ∃ traps d, Reaches sampleEnv anyRequest traps d ∧ Counting d.kernel n := by
  induction n using Nat.strong_induction_on with
  | _ n ih =>
      by_cases first : n = 2
      · subst first
        obtain ⟨d, reaches, counting⟩ := counting_start
        exact ⟨[], d, reaches, counting⟩
      · have free := behind.resolve_left first
        obtain ⟨before, below, same, off⟩ : ∃ before, 2 ≤ before ∧
            n = before + (if before % 64 = 0 then 3 else 1) ∧
            (before = 2 ∨ before % 64 ≠ 1 ∧ before % 64 ≠ 2) := by
          by_cases third : n % 64 = 3 ∧ 64 ≤ n
          · exact ⟨n - 3, by omega, by rw [if_pos (by omega)]; omega, Or.inr (by omega)⟩
          · exact ⟨n - 1, by omega, by rw [if_neg (by omega)]; omega, by omega⟩
        have earlier : before < n := by
          rw [same]
          split <;> omega
        obtain ⟨traps, d, reaches, counting⟩ := ih before earlier below (by omega) off
        obtain ⟨d', stepped, counting'⟩ := counting.step (by omega) (by omega)
        exact ⟨_, d', reaches.snoc stepped, same ▸ counting'⟩

theorem pidFits_of_small {kernel : Kernel} {p : Slot} {request : Request}
    (small : kernel.nextpid.toNat + MAX_PROC < 2 ^ 31) : PidFits kernel p request := by
  cases request with
  | create fp stackSize =>
      intro k found
      have bounded := found.bounded
      exact Or.inr (Or.inl (by omega))
  | _ => trivial

theorem pids_positive_third : ∃ d, Reaches sampleEnv PidFits [syscreate sampleFrame 0x5000 0] d ∧
    0 < (d.kernel.proctab 3).pid.toInt := by
  obtain ⟨first, ⟨start, booted, _, same⟩, counting⟩ := counting_start
  obtain rfl : start = first := Option.some.inj same
  obtain ⟨d, ⟨start', booted', _, reached⟩, live⟩ := reaches_of_check sampleEnv anyRequest
    [syscreate sampleFrame 0x5000 0] (fun d => (d.kernel.proctab 3).state ≠ .stopped)
    (by decide +kernel)
  obtain rfl : start = start' := Option.some.inj (booted.symm.trans booted')
  have fits : Guarded PidFits start (syscreate sampleFrame 0x5000 0) := by
    refine pidFits_of_small ?_
    rw [(counting.entered 0).nextpid]
    decide
  have reaches : Reaches sampleEnv PidFits [syscreate sampleFrame 0x5000 0] d :=
    ⟨start, booted, ⟨fits, fun _ _ => trivial⟩, reached⟩
  exact ⟨d, reaches, (pids_positive reaches).1 3 live⟩

/-- The first number from 2^31 on is given out in slot 0. -/
theorem pids_negative : ∃ traps d d', Reaches sampleEnv anyRequest traps d ∧
    dispatch sampleEnv d (syscreate sampleFrame 0x5000 0) = some d' ∧
    (d'.kernel.proctab 0).state = .ready ∧ (d'.kernel.proctab 0).pid.toInt < 0 ∧
    (d'.kernel.proctab d.current).ret = (d'.kernel.proctab 0).pid := by
  obtain ⟨traps, d, reaches, counting⟩ :=
    counting_reach (n := 2 ^ 31 - 1) (by decide) (by decide) (by decide)
  have inside := counting.entered 0
  have found : FirstFree (d.entered (syscreate sampleFrame 0x5000 0)) 1 :=
    inside.firstFree (by decide)
  have isLast : (d.entered (syscreate sampleFrame 0x5000 0)).nextpid = 0x7fffffff :=
    BitVec.eq_of_toNat_eq inside.nextpid
  obtain ⟨⟨block, heap⟩, allocated, nonzero⟩ := (Option.any_eq_true _ _).mp inside.room
  have created := create_found sampleEnv 0x5000 found
    (show kmalloc _ (stackNeed 0) = some (block, heap) from allocated)
  rw [if_neg (of_decide_eq_true nonzero)] at created
  obtain ⟨base, esp, _, _, created⟩ := created
  have slot : slotAfter (d.entered (syscreate sampleFrame 0x5000 0)).nextpid 1 = 0 := by
    rw [isLast]
    decide
  rw [slot, isLast] at created
  refine ⟨traps, d, _, reaches,
    by rw [Dispatcher.dispatch_eq, syscreate_request, serve, created, Option.map_some], ?_, ?_, ?_⟩
  · rw [(resume_private _ d.current _).toTouches.same (·.state) fun _ => rfl]
    simp [ready_proctab]
  · rw [(resume_private _ d.current _).toTouches.samePids 0, ready_proctab, Kernel.modify_proctab,
      if_pos rfl]
    have negative : (0x7fffffff + BitVec.ofNat 32 1 : Word).toInt < 0 := by decide
    exact negative
  · rw [(resume_private _ d.current _).toTouches.samePids 0, ready_proctab, Kernel.modify_proctab,
      if_pos rfl]
    simp [resume]

end Samples

end XerosKernel
