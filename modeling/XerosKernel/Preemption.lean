import XerosKernel.KernelWrites

/-!
A process that is not running. Until the process runs again at the level of its signal handlers, the
kernel keeps its place on the stack, and a block of memory that nobody writes to keeps its words.
-/

namespace XerosKernel

open Execution Ia32

variable {env : Env} {kernel kernel' kernel'' : Kernel} {p i : Slot} {ports : Ports}
  {request : Request} {d d' : Dispatcher}

/-! The state of a process. -/

/-- The state of `i` stays the same, or `i` gets ready, or `i` is the current process `p` and goes
on or waits for something. -/
def StateStep (p i : Slot) (kernel kernel' : Kernel) : Prop :=
  (kernel'.proctab i).state = (kernel.proctab i).state ∨ (kernel'.proctab i).state = .ready ∨
    (i = p ∧ (kernel'.proctab i).state ≠ .stopped)

namespace StateStep

theorem refl : StateStep p i kernel kernel := Or.inl rfl

theorem trans (first : StateStep p i kernel kernel') (second : StateStep p i kernel' kernel'') :
    StateStep p i kernel kernel'' := by
  rcases second with same | rest
  · rw [StateStep, same]
    exact first
  · exact Or.inr rest

theorem kept (same : ∀ i, (kernel'.proctab i).state = (kernel.proctab i).state) :
    StateStep p i kernel kernel' := Or.inl (same i)

theorem modify (kernel : Kernel) (q : Slot) (write : Pcb → Pcb)
    (same : (write (kernel.proctab q)).state = (kernel.proctab q).state) :
    StateStep p i kernel (kernel.modify q write) :=
  Or.inl (kernel.modify_same q write Pcb.state same i)

theorem ready (kernel : Kernel) (q : Slot) : StateStep p i kernel (ready kernel q) := by
  rw [StateStep, ready_proctab]
  by_cases isQ : i = q
  · exact Or.inr (Or.inl (if_pos isQ))
  · exact Or.inl (if_neg isQ)

theorem waits (kernel : Kernel) (write : Pcb → Pcb)
    (alive : (write (kernel.proctab p)).state ≠ .stopped) :
    StateStep p i kernel (kernel.modify p write) := by
  by_cases isP : i = p
  · subst isP
    refine Or.inr (Or.inr ⟨rfl, ?_⟩)
    rw [Kernel.modify_proctab, if_pos rfl]
    exact alive
  · refine Or.inl ?_
    rw [Kernel.modify_proctab, if_neg isP]

theorem reschedule (popped : reschedule kernel = some d) : StateStep p i kernel d.kernel :=
  kept (reschedule_state popped)

theorem sleep {len : Word} (slept : sleep kernel p len = some kernel') :
    StateStep p i kernel kernel' := by
  rcases sleep_cases slept with rfl | same
  · exact ready kernel p
  · have asleep : StateStep p i kernel (asleep kernel p) := waits kernel _ (by simp)
    exact asleep.trans (kept (unlinked_same same (·.state) fun _ => rfl))

theorem tick (ticked : tick kernel = some kernel') : StateStep p i kernel kernel' := by
  rcases tick_outcome ticked i with ⟨_, same⟩ | ⟨_, _, isReady⟩
  · exact Or.inl same
  · exact Or.inr (Or.inl isReady)

theorem waking : Waking (StateStep p i) where
  refl := fun _ => refl
  trans := trans
  ready := ready
  answer := fun kernel q value => modify kernel q (fun pcb => { pcb with ret := value }) rfl
  forget := fun kernel q => modify kernel q (fun pcb => { pcb with waitpid := 0 }) rfl
  unlinked := fun same => kept (unlinked_same same (·.state) fun _ => rfl)

theorem touches {q : Slot} (touches : Touches q kernel kernel') : StateStep p i kernel kernel' :=
  kept fun i => touches.same (·.state) (fun _ => rfl) i

theorem create {fp stack value : Word}
    (created : create env kernel fp stack = some (value, kernel')) :
    StateStep p i kernel kernel' := by
  rcases create_cases created with outside | ⟨slot, base, esp, pid, _, _, outside, rfl⟩
  · exact Or.inl (by rw [outside.table])
  · refine StateStep.trans ?_ (ready _ slot)
    by_cases isSlot : i = slot
    · exact Or.inr (Or.inl (by simp [isSlot]))
    · exact Or.inl (by simp [isSlot, outside.table])

theorem alive (step : StateStep p i kernel kernel') (before : (kernel.proctab i).state ≠ .stopped) :
    (kernel'.proctab i).state ≠ .stopped := by
  rcases step with same | isReady | ⟨_, other⟩
  · rw [same]
    exact before
  · rw [isReady]
    exact nofun
  · exact other

end StateStep

theorem serve_state (goesOn : i = p → request ≠ .stop)
    (served : serve env kernel p ports request = some d) : StateStep p i kernel d.kernel := by
  cases request with
  | create fp stack =>
      obtain ⟨⟨value, kernel'⟩, created, rfl⟩ := Option.map_eq_some_iff.mp served
      exact (StateStep.create created).trans
        (StateStep.touches (resume_private kernel' p value).toTouches)
  | yield => exact (StateStep.ready kernel p).trans (StateStep.reschedule served)
  | stop =>
      refine StateStep.trans (Or.inl ?_) (StateStep.reschedule served)
      rw [Kernel.modify_proctab, if_neg fun isP => goesOn isP rfl]
  | kill pid signum =>
      cases called : signalCalled kernel (.kill pid signum) with
      | none =>
          obtain ⟨⟨value, kernel'⟩, killed, rfl⟩ := Option.map_eq_some_iff.mp served
          obtain ⟨_, rfl⟩ := uncalled_dropped called killed
          exact StateStep.touches (resume_private kernel' p value).toTouches
      | some call =>
          obtain ⟨kernel', target, signum'⟩ := call
          obtain ⟨_, rfl⟩ := called_answer (p := p) called served
          have signalled := StateStep.touches (p := p) (i := i)
            (signal_touches env kernel' target signum')
          exact ((StateStep.waking.signalCalled called).trans signalled).trans
            (StateStep.touches (resume_private _ p _).toTouches)
  | sleep len =>
      obtain ⟨kernel', slept, popped⟩ := Option.bind_eq_some_iff.mp served
      exact (StateStep.sleep slept).trans (StateStep.reschedule popped)
  | timer =>
      obtain ⟨kernel', ticked, popped⟩ := Option.bind_eq_some_iff.mp served
      have counted : StateStep p i kernel' (kernel'.modify p fun pcb =>
          { pcb with cpuTime := pcb.cpuTime + 1 }) := StateStep.modify kernel' p _ rfl
      exact (((StateStep.tick ticked).trans counted).trans (StateStep.ready _ p)).trans
        (StateStep.reschedule popped)
  | wait pid =>
      rcases serve_wait served with ⟨_, rfl⟩ | ⟨_, _, popped⟩
      · exact StateStep.touches (resume_private kernel p _).toTouches
      · exact (StateStep.waits kernel _ (by simp)).trans (StateStep.reschedule popped)
  | read fd buff bufflen =>
      obtain ⟨⟨value, kernel'⟩, read, rest⟩ := Option.bind_eq_some_iff.mp served
      have answered : StateStep p i kernel kernel' := by
        rcases diRead_cases read with ⟨stays, _⟩ | ⟨_, _, middle, stays, rfl⟩ |
          ⟨_, middle, stays, rfl⟩ | ⟨_, _, stays⟩
        · exact StateStep.touches stays.toTouches
        · exact (StateStep.touches stays.toTouches).trans (StateStep.ready middle p)
        · exact (StateStep.touches stays.toTouches).trans (StateStep.waits middle _ (by simp))
        · exact StateStep.touches stays.toTouches
      simp only at rest
      split at rest
      · exact answered.trans (StateStep.reschedule rest)
      · cases rest
        exact answered.trans (StateStep.touches (resume_private kernel' p value).toTouches)
  | _ => exact StateStep.touches (serve_local (by trivial) served).2.toTouches

/-! The levels of the signal handlers. -/

variable {w w' : Watched} {trap : Trap} {depth : Nat}

/-- What the process is to find at each level, the code that no handler interrupts first. -/
def Watched.levels (w : Watched) : List Resumption := w.older.reverse ++ [w.now]

theorem Watched.after_cases (env : Env) (p : Slot) (w : Watched) (trap : Trap) (d' : Dispatcher) :
    (∃ frame now, w.after env p trap d' = (now, w.answered env p trap d' :: w.older) ∧
      w.framesAfter p trap d' = frame :: w.frames) ∨
    (w.d.current = p ∧ (∃ old_sp old_ret sigLvl, w.d.request trap = .sigreturn old_sp old_ret sigLvl) ∧
      w.after env p trap d' = (w.older.headD (w.answered env p trap d'), w.older.tail) ∧
      w.framesAfter p trap d' = w.frames.tail) ∨
    (w.d.kernel.proctab p).state = .stopped ∨
    (w.after env p trap d' = (w.answered env p trap d', w.older) ∧
      w.framesAfter p trap d' = w.frames) := by
  cases called : signalCalled (w.d.entered trap) (w.d.request trap) with
  | some call =>
      have after := after_called env p d' called
      have frames : w.framesAfter p trap d' = _ := framesAfter_called called
      split at after
      · rename_i delivered
        rw [if_pos delivered] at frames
        exact Or.inl ⟨_, _, after, frames⟩
      · rename_i other
        rw [if_neg other] at frames
        exact Or.inr (Or.inr (Or.inr ⟨after, frames⟩))
  | none =>
      cases request : w.d.request trap with
      | sigreturn old_sp old_ret sigLvl =>
          simp only [Watched.after, Handling.framesAfter, request, signalCalled]
          by_cases isCurrent : w.d.current = p
          · refine Or.inr (Or.inl ⟨isCurrent, ⟨_, _, _, rfl⟩, ?_, ?_⟩)
            · rw [if_pos isCurrent]
            · rw [if_pos isCurrent]
          · refine Or.inr (Or.inr (Or.inr ⟨?_, ?_⟩))
            · rw [if_neg isCurrent]
            · rw [if_neg isCurrent]
      | create fp stack =>
          simp only [Watched.after, Handling.framesAfter, request, signalCalled]
          by_cases fills : (w.d.kernel.proctab p).state = .stopped ∧
              (d'.kernel.proctab p).state ≠ .stopped
          · exact Or.inr (Or.inr (Or.inl fills.1))
          · refine Or.inr (Or.inr (Or.inr ⟨?_, ?_⟩))
            · rw [if_neg fills]
            · rw [if_neg fills]
      | _ =>
          obtain ⟨after, frames⟩ := after_quiet env p d' called (by simp [request])
            (by simp [request])
          exact Or.inr (Or.inr (Or.inr ⟨after, frames⟩))

/-- No byte of the `n` words at `addr` is written to, by a process or by the kernel, and `p` runs in
handlers above `depth` only. -/
def Spares (env : Env) (p : Slot) (depth : Nat) (addr : Word) (n : Nat) (w : Watched)
    (trap : Trap) : Prop :=
  words trap.mem addr n = words w.d.kernel.mem addr n ∧
  (∀ block ∈ (w.d.request trap).blocks env (w.d.entered trap) w.d.current,
    Apart block.1 block.2 addr (4 * n)) ∧
  (w.d.current = p → depth < w.frames.length ∧ w.d.request trap ≠ .stop)

instance (env : Env) (p : Slot) (depth : Nat) (addr : Word) (n : Nat) (w : Watched) (trap : Trap) :
    Decidable (Spares env p depth addr n w trap) := inferInstanceAs (Decidable (_ ∧ _))

/-- `p` is at or above `depth`, where it is to go on at `esp`, and with `ret` if it was preempted. -/
structure Suspended (p : Slot) (depth : Nat) (esp : Word) (ret : Option Word) (addr : Word)
    (saved : List Word) (w : Watched) : Prop where
  faithful : Faithful p w
  alive : (w.d.kernel.proctab p).state ≠ .stopped
  deep : depth ≤ w.frames.length
  level : ∃ r : Resumption, w.levels[depth]? = some r ∧ r.esp = esp ∧ ∀ value ∈ ret, r.ret = some value
  ready : ∀ value ∈ ret, depth = w.frames.length → w.d.current ≠ p →
    (w.d.kernel.proctab p).state = .ready
  kept : words w.d.kernel.mem addr saved.length = saved

theorem entered_state (d : Dispatcher) (trap : Trap) (i : Slot) :
    ((d.entered trap).proctab i).state = (d.kernel.proctab i).state :=
  (contextswitch_private d.kernel d.current trap).toTouches.same (·.state) (fun _ => rfl) i

theorem wakeResult_ready (isReady : (kernel.proctab p).state = .ready) (request : Request) :
    wakeResult kernel d' p request = none := by
  have notWaiting : (kernel.proctab p).state ≠ .wait := by
    rw [isReady]
    exact nofun
  have notSleeping : (kernel.proctab p).state ≠ .sleep := by
    rw [isReady]
    exact nofun
  cases request with
  | kill pid number =>
      by_cases reached : killTarget kernel pid number = some p
      · rw [wakeResult_reached reached, if_neg notWaiting, if_neg notSleeping]
      · exact wakeResult_missed reached
  | timer => exact if_neg fun wakes => notSleeping wakes.1
  | _ => rfl

theorem spared_words {addr : Word} {n : Nat}
    (spares : Spares env p depth addr n w trap)
    (served : serve env (w.d.entered trap) w.d.current trap.ports (w.d.request trap) = some d') :
    words d'.kernel.mem addr n = words w.d.kernel.mem addr n := by
  have written := (serve_writes served).words spares.2.1
  rw [written, entered_mem_eq, spares.1]

theorem levels_after {now : Resumption} {older : List Resumption} {r : Resumption}
    (isLevel : (older.reverse ++ [now])[depth]? = some r) (below : depth < older.length)
    (extra : List Resumption) : (older.reverse ++ extra)[depth]? = some r := by
  have inside : depth < older.reverse.length := by rwa [List.length_reverse]
  rw [List.getElem?_append_left inside] at isLevel ⊢
  exact isLevel

theorem levels_top {older : List Resumption} (top : depth = older.length)
    (extra : List Resumption) (now : Resumption) : (older.reverse ++ (now :: extra))[depth]? = some now := by
  have length : older.reverse.length = depth := by rw [List.length_reverse, top]
  rw [List.getElem?_append_right (by omega), length, Nat.sub_self]
  rfl

namespace Suspended

variable {esp addr : Word} {ret : Option Word} {saved : List Word}

theorem older (suspended : Suspended p depth esp ret addr saved w) :
    w.older.length = w.frames.length := suspended.faithful.older.length_eq.symm

theorem step (suspended : Suspended p depth esp ret addr saved w)
    (transparent : Transparent p w trap) (spares : Spares env p depth addr saved.length w trap)
    (stepped : w.step env p trap = some w') : Suspended p depth esp ret addr saved w' := by
  have faithful := suspended.faithful.step transparent stepped
  obtain ⟨d', dispatched, rfl⟩ := Option.map_eq_some_iff.mp stepped
  have served := dispatched
  rw [Dispatcher.dispatch_eq] at served
  obtain ⟨r, isLevel, esp', ret'⟩ := suspended.level
  have length := suspended.older
  have goesOn : p = w.d.current → w.d.request trap ≠ .stop :=
    fun isCurrent => (spares.2.2 isCurrent.symm).2
  have stateStep := serve_state goesOn served
  have alive := stateStep.alive ((entered_state w.d trap p).symm ▸ suspended.alive)
  have state := stateStep
  rw [StateStep, entered_state] at state
  have kept : words d'.kernel.mem addr saved.length = saved :=
    (spared_words spares served).trans suspended.kept
  -- the level of a process that does not run changes only if its call gets a result
  have answered : depth = w.older.length → w.d.current ≠ p →
      (w.answered env p trap d').esp = esp ∧
        ∀ value ∈ ret, (w.answered env p trap d').ret = some value := by
    intro top other
    have isNow : w.now = r := by
      have found := levels_top top [] (w.now)
      rw [Watched.levels, found] at isLevel
      exact Option.some.inj isLevel
    have entered : w.entered p trap = r := by
      rw [Watched.entered, if_neg other, isNow]
    refine ⟨?_, fun value isValue => ?_⟩
    · simp only [Watched.answered, entered]
      exact esp'
    · have isReady := suspended.ready value isValue (by omega) other
      rw [← entered_state w.d trap p] at isReady
      simp only [Watched.answered, Watched.given, entered, if_neg other,
        wakeResult_ready isReady, Option.none_or]
      exact ret' value isValue
  have levels : (w.next env p trap d').levels =
      (w.after env p trap d').2.reverse ++ [(w.after env p trap d').1] := rfl
  have frames' : (w.next env p trap d').frames = w.framesAfter p trap d' := rfl
  rcases w.after_cases env p trap d' with ⟨frame, now, after, frames⟩ |
    ⟨isCurrent, ⟨_, _, _, isReturn⟩, after, frames⟩ | stopped | ⟨after, frames⟩
  · -- a new handler runs above the level
    rw [after, List.reverse_cons, List.append_assoc] at levels
    rw [frames] at frames'
    refine ⟨faithful, alive, ?_, ?_, ?_, kept⟩
    · rw [frames', List.length_cons]
      exact Nat.le_succ_of_le suspended.deep
    · by_cases top : depth = w.older.length
      · have other : w.d.current ≠ p := by
          intro isCurrent
          have above := (spares.2.2 isCurrent).1
          omega
        obtain ⟨sameEsp, sameRet⟩ := answered top other
        exact ⟨_, levels ▸ levels_top top [now] _, sameEsp, sameRet⟩
      · have deep := suspended.deep
        have below : depth < w.older.length := by omega
        exact ⟨r, levels ▸ levels_after isLevel below _, esp', ret'⟩
    · intro value _ top
      have deep := suspended.deep
      rw [frames', List.length_cons] at top
      omega
  · -- the newest handler returns, and the level lies below it
    have above := (spares.2.2 isCurrent).1
    obtain ⟨newest, rest, isOlder⟩ := List.exists_cons_of_length_pos
      (by omega : 0 < w.older.length)
    rw [after, isOlder, List.headD_cons, List.tail_cons, ← List.reverse_cons, ← isOlder] at levels
    rw [frames] at frames'
    refine ⟨faithful, alive, ?_, ⟨r, ?_, esp', ret'⟩, ?_, kept⟩
    · rw [frames', List.length_tail]
      omega
    · have inside : depth < w.older.reverse.length := by
        rw [List.length_reverse]
        omega
      rw [Watched.levels, List.getElem?_append_left inside] at isLevel
      rw [levels]
      exact isLevel
    · intro value _ _ elsewhere
      rw [isReturn] at served
      cases served
      exact absurd isCurrent elsewhere
  · exact absurd stopped suspended.alive
  · rw [after] at levels
    rw [frames] at frames'
    refine ⟨faithful, alive, frames' ▸ suspended.deep, ?_, ?_, kept⟩
    · by_cases top : depth = w.older.length
      · have other : w.d.current ≠ p := by
          intro isCurrent
          have above := (spares.2.2 isCurrent).1
          omega
        obtain ⟨sameEsp, sameRet⟩ := answered top other
        exact ⟨_, levels ▸ levels_top top [] _, sameEsp, sameRet⟩
      · have deep := suspended.deep
        have below : depth < w.older.length := by omega
        exact ⟨r, levels ▸ levels_after isLevel below _, esp', ret'⟩
    · intro value isValue top elsewhere
      rw [frames'] at top
      have other : w.d.current ≠ p := by
        intro isCurrent
        have above := (spares.2.2 isCurrent).1
        omega
      have isReady := suspended.ready value isValue top other
      rcases state with same | readied | ⟨isCurrent, _⟩
      · exact same.trans isReady
      · exact readied
      · exact absurd isCurrent.symm other

theorem run {traps : List Trap} (suspended : Suspended p depth esp ret addr saved w)
    (transparent : Along (Watched.step env p) (Transparent p) w traps)
    (spares : Along (Watched.step env p) (Spares env p depth addr saved.length) w traps)
    (reached : run (Watched.step env p) w traps = some w') :
    Suspended p depth esp ret addr saved w' := by
  have both : Along (Watched.step env p) (fun w trap =>
      Transparent p w trap ∧ Spares env p depth addr saved.length w trap) w traps :=
    along_and transparent spares
  exact run_invariant (fun _ _ _ suspended guard stepped =>
    suspended.step guard.1 guard.2 stepped) suspended both reached

theorem resumes (suspended : Suspended p depth esp ret addr saved w)
    (atLevel : w.frames.length = depth) : (w.d.kernel.proctab p).esp = esp ∧
      (∀ value ∈ ret, (w.d.kernel.proctab p).ret = value) ∧
      words w.d.kernel.mem addr saved.length = saved := by
  obtain ⟨r, isLevel, isEsp, isRet⟩ := suspended.level
  have top : depth = w.older.length := by
    rw [suspended.older]
    exact atLevel.symm
  have isNow : w.now = r := by
    have found := levels_top top [] (w.now)
    rw [Watched.levels, found] at isLevel
    exact Option.some.inj isLevel
  obtain ⟨metEsp, metRet⟩ := suspended.faithful.now
  rw [isNow] at metEsp metRet
  exact ⟨metEsp.trans isEsp, fun value isValue => metRet value (isRet value isValue),
    suspended.kept⟩

end Suspended

/-! Interrupts. -/

theorem interrupt_request (d : Dispatcher) {trap : Trap} (interrupt : trap.trapNo ≠ .kernel) :
    d.request trap = .timer ∧ trap.trapNo = .timer ∨
      d.request trap = .keyboard ∧ trap.trapNo = .keyboard := by
  cases isTrap : trap.trapNo with
  | kernel => exact absurd isTrap interrupt
  | timer =>
      refine Or.inl ⟨?_, rfl⟩
      simp only [Dispatcher.request, contextswitch, isTrap]
      rfl
  | keyboard =>
      refine Or.inr ⟨?_, rfl⟩
      simp only [Dispatcher.request, contextswitch, isTrap]
      rfl

theorem interrupt_after (env : Env) (isCurrent : w.d.current = p)
    (interrupt : trap.trapNo ≠ .kernel) (d' : Dispatcher) :
    w.after env p trap d' = ({ esp := trap.esp, ret := some trap.eax }, w.older) ∧
      w.framesAfter p trap d' = w.frames := by
  have given : w.given env p trap d' = none := by
    rw [Watched.given, if_pos isCurrent]
    rcases interrupt_request w.d interrupt with ⟨request, _⟩ | ⟨request, _⟩
    · rw [request]
      rfl
    · rw [request]
      rfl
  have answered : w.answered env p trap d' = { esp := trap.esp, ret := some trap.eax } := by
    rw [Watched.answered, given, Watched.entered, if_pos isCurrent, if_neg interrupt]
    rfl
  rw [← answered]
  rcases interrupt_request w.d interrupt with ⟨request, _⟩ | ⟨request, _⟩
  · exact after_quiet env p d' (by rw [request]; rfl) (by simp [request]) (by simp [request])
  · exact after_quiet env p d' (by rw [request]; rfl) (by simp [request]) (by simp [request])

theorem interrupt_blocks (env : Env) (d : Dispatcher) (interrupt : trap.trapNo ≠ .kernel) :
    (d.request trap).blocks env (d.entered trap) d.current = [] := by
  rcases interrupt_request d interrupt with ⟨request, _⟩ | ⟨request, _⟩
  · rw [request]
    rfl
  · rw [request]
    rfl

theorem timer_ready (served : serve env kernel p ports .timer = some d) :
    (d.kernel.proctab p).state = .ready := by
  obtain ⟨kernel', ticked, popped⟩ := Option.bind_eq_some_iff.mp served
  rw [reschedule_state popped, ready_proctab]
  exact if_pos rfl

theorem interrupted_regs {round round' : Round} {ret : Word}
    (esp : (kernel.proctab p).esp = round.frame) (isRet : (kernel.proctab p).ret = ret)
    (frame : words kernel.mem round.frame 11 = round.regs.saved)
    (apart : Apart round'.kernelStack 36 (kernel.proctab p).esp 44) :
    (round'.switchIn kernel p).regs = { round.regs with eax := ret } := by
  rw [Round.switchIn_regs apart, esp, isRet]
  have restored : resumed kernel.mem round.frame = round.regs := resumed_saved frame
  rw [restored]

/-- In a run that is transparent to it, a process that an interrupt stops goes on with all its
registers once its handlers have returned, whoever runs in the meantime, if its frame on the stack
is spared. -/
theorem preempted_restored {env : Env} {evec : TrapNo → Word} {p : Slot} {start : Dispatcher}
    {before after : List Trap} {round round' : Round} {w w' : Watched}
    (transparent : Along (Watched.step env p) (Transparent p) (Watched.start p start)
      (before ++ round.trap evec :: after))
    (reached : run (Watched.step env p) (Watched.start p start) before = some w)
    (isCurrent : w.d.current = p) (interrupt : round.trapNo ≠ .kernel)
    (stackKept : StackKept w.d round)
    (spares : ∀ w₁, w.step env p (round.trap evec) = some w₁ →
      Along (Watched.step env p) (Spares env p w.frames.length round.frame 11) w₁ after)
    (continued : run (Watched.step env p) w (round.trap evec :: after) = some w')
    (runs : w'.d.current = p) (returned : w'.frames.length = w.frames.length)
    (apart : Apart round'.kernelStack 36 (w'.d.kernel.proctab w'.d.current).esp 44) :
    (round'.switchIn w'.d.kernel w'.d.current).regs = round.regs := by
  rw [runs] at apart ⊢
  obtain ⟨along, alongBehind⟩ := along_append transparent reached
  have faithful : Faithful p w := by
    have initial : Faithful p (Watched.start p start) := ⟨Resumption.met_none _ _, .nil⟩
    exact run_invariant (fun w trap w' faithful transparent stepped =>
      faithful.step transparent stepped) initial along reached
  obtain ⟨w₁, stepped, rest⟩ := run_cons_eq_some.mp continued
  have faithful₁ := faithful.step alongBehind.1 stepped
  obtain ⟨d₁, dispatched, rfl⟩ := Option.map_eq_some_iff.mp stepped
  have trapped : (round.trap evec).trapNo ≠ .kernel := interrupt
  obtain ⟨isAfter, isFrames⟩ := interrupt_after env isCurrent trapped d₁
  have served := dispatched
  rw [Dispatcher.dispatch_eq, isCurrent] at served
  have mem : d₁.kernel.mem = (round.trap evec).mem := by
    funext addr
    have written := serve_writes served addr
    rw [← isCurrent, interrupt_blocks env w.d trapped, entered_mem_eq] at written
    exact written (fun block isIn => (List.not_mem_nil isIn).elim)
  have frame : words d₁.kernel.mem round.frame 11 = round.regs.saved := by
    rw [mem]
    exact Round.words_frame evec stackKept.stops
  have now : (w.next env p (round.trap evec) d₁).now =
      { esp := round.frame, ret := some round.regs.eax } := congrArg Prod.fst isAfter
  rcases interrupt_request w.d trapped with ⟨request, _⟩ | ⟨request, _⟩
  · -- the timer puts the process on the ready queue
    rw [request] at served
    have isReady := timer_ready served
    have suspended : Suspended p w.frames.length round.frame (some round.regs.eax) round.frame
        round.regs.saved (w.next env p (round.trap evec) d₁) := by
      have behind : (w.next env p (round.trap evec) d₁).frames = w.frames := isFrames
      refine ⟨faithful₁, ?_, ?_, ?_, fun _ _ _ _ => isReady, frame⟩
      · have alive : (d₁.kernel.proctab p).state ≠ .stopped := by
          rw [isReady]
          exact nofun
        exact alive
      · rw [behind]
      · refine ⟨_, levels_top ?_ [] _, ?_, ?_⟩
        · rw [← behind]
          exact faithful₁.older.length_eq
        · rw [now]
        · rw [now]
          exact fun value isValue => isValue
    have finally' := suspended.run (alongBehind.2 _ stepped) (spares _ stepped) rest
    obtain ⟨esp, ret, words⟩ := finally'.resumes returned
    exact interrupted_regs esp (ret _ rfl) words apart
  · -- a keyboard interrupt leaves it running
    rw [request] at served
    cases served
    cases after with
    | nil =>
        obtain rfl := Option.some.inj rest
        have met := faithful₁.now
        rw [now] at met
        exact interrupted_regs met.1 (met.2 _ rfl) frame apart
    | cons trap behind =>
        have above := ((spares _ stepped).1.2.2 rfl).1
        have same := congrArg List.length isFrames
        exact absurd (same ▸ above) (Nat.lt_irrefl _)

theorem not_onSleepQueue (empty : kernel.sleepQ = none) : ¬ OnSleepQueue kernel p := by
  intro onQueue
  induction onQueue with
  | first head =>
      rw [empty] at head
      cases head
  | next _ _ ih => exact ih

def sparingYield : Trap :=
  sysyield { sampleFrame with
    esp := 0x70000, mem := ((sampleRound .timer).trap sampleEvec).mem }

theorem preempted_restored_sample : ∃ (start : Dispatcher) (w' : Watched),
    boot sampleEnv = some start ∧
    run (Watched.step sampleEnv 1) (Watched.start 1 start)
      [(sampleRound .timer).trap sampleEvec, sparingYield] = some w' ∧
    w'.d.current = 1 ∧
    ((sampleRound .timer).switchIn w'.d.kernel w'.d.current).regs = processSample := by
  have check : ∃ start ∈ boot sampleEnv, start.current = 1 ∧
      StackKept start (sampleRound .timer) ∧
      Along (Watched.step sampleEnv 1) (fun w trap => SignalsInPlace 1 w trap ∧
        (w.d.entered trap).sleepQ = none) (Watched.start 1 start)
          [(sampleRound .timer).trap sampleEvec, sparingYield] ∧
      (∃ w₁ ∈ Watched.step sampleEnv 1 (Watched.start 1 start)
        ((sampleRound .timer).trap sampleEvec),
          Along (Watched.step sampleEnv 1) (Spares sampleEnv 1 0 (sampleRound .timer).frame 11) w₁
            [sparingYield]) ∧
      ∃ w' ∈ run (Watched.step sampleEnv 1) (Watched.start 1 start)
        [(sampleRound .timer).trap sampleEvec, sparingYield],
        w'.d.current = 1 ∧ w'.frames.length = 0 ∧
        Apart (sampleRound .timer).kernelStack 36 (w'.d.kernel.proctab w'.d.current).esp 44 := by
    decide +kernel
  obtain ⟨start, booted, isCurrent, stackKept, along, ⟨w₁, stepped, spares⟩, w', reached, runs,
    returned, apart⟩ := check
  have transparent : Along (Watched.step sampleEnv 1) (Transparent 1) (Watched.start 1 start)
      ([] ++ (sampleRound .timer).trap sampleEvec :: [sparingYield]) := by
    apply along_imp _ along
    intro w trap inPlace
    exact ⟨inPlace.1, fun _ onQueue => absurd onQueue (not_onSleepQueue inPlace.2)⟩
  have first : run (Watched.step sampleEnv 1) (Watched.start 1 start) [] =
      some (Watched.start 1 start) := rfl
  have spares' : ∀ w₂, Watched.step sampleEnv 1 (Watched.start 1 start)
      ((sampleRound .timer).trap sampleEvec) = some w₂ →
      Along (Watched.step sampleEnv 1) (Spares sampleEnv 1 0 (sampleRound .timer).frame 11) w₂
        [sparingYield] := by
    intro w₂ stepped'
    rw [stepped] at stepped'
    cases stepped'
    exact spares
  exact ⟨start, w', booted, reached, runs, preempted_restored transparent first isCurrent nofun
    stackKept spares' reached runs returned apart⟩

end XerosKernel
