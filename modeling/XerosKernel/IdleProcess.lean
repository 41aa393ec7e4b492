import XerosKernel.Runs

/-!
The idle process keeps the ready queue from running empty. The first process that `initproc`
creates yields forever, so it is running or ready as long as no signal 31 takes it off the
ready queue and the queues stay in order.
-/

namespace XerosKernel

open Execution

def idle : Slot := slotOf 1

/-- The kernel on which `serve` calls `next`, if the request gives the processor up. -/
def nextCalled (env : Env) (kernel : Kernel) (p : Slot) : Request → Option Kernel
  | .yield => some (ready kernel p)
  | .stop => some (kernel.modify p fun pcb => { pcb with state := .stopped })
  | .sleep len => sleep kernel p len
  | .timer => (tick kernel).map fun kernel =>
      ready (kernel.modify p fun pcb => { pcb with cpuTime := pcb.cpuTime + 1 }) p
  | .wait pid =>
      match findPCB kernel pid with
      | none => none
      | some _ =>
          if pid = 0 then none
          else some (kernel.modify p fun pcb =>
            { pcb with state := .wait, waitpid := pid, ret := 0 })
  | .read fd buff bufflen => (diRead env kernel p fd buff bufflen).bind fun (readRet, kernel) =>
      if readRet = -3 then some kernel else none
  | .create _ _ | .kill _ _ | .cputimes _ | .puts _ | .getpid | .sighandler _ _
  | .sigreturn _ _ _ | .openDevice _ | .close _ | .write _ _ _ | .ioctl _ _ _ | .keyboard
  | .bad _ => none

def Request.IsIdle : Request → Prop
  | .yield | .timer | .keyboard => True
  | _ => False

instance : (request : Request) → Decidable request.IsIdle
  | .yield | .timer | .keyboard => isTrue trivial
  | .create _ _ | .stop | .kill _ _ | .cputimes _ | .puts _ | .getpid | .sleep _
  | .sighandler _ _ | .sigreturn _ _ _ | .wait _ | .openDevice _ | .close _ | .read _ _ _
  | .write _ _ _ | .ioctl _ _ _ | .bad _ => isFalse id

def SparesIdle (kernel : Kernel) : Request → Prop
  | .kill pid signum => signum = 31 → killTarget kernel pid signum ≠ some idle
  | _ => True

instance (kernel : Kernel) : (request : Request) → Decidable (SparesIdle kernel request)
  | .kill _ _ => inferInstanceAs (Decidable (_ → _))
  | .create _ _ | .yield | .stop | .cputimes _ | .puts _ | .getpid | .sleep _ | .timer
  | .sighandler _ _ | .sigreturn _ _ _ | .wait _ | .openDevice _ | .close _ | .read _ _ _
  | .write _ _ _ | .ioctl _ _ _ | .keyboard | .bad _ => isTrue trivial

instance (env : Env) (kernel : Kernel) (p : Slot) :
    (request : Request) → Decidable (Orderly env kernel p request)
  | .kill _ _ => inferInstanceAs (Decidable (∀ _ ∈ _, _))
  | .read _ _ _ => inferInstanceAs (Decidable (¬ _))
  | .create _ _ | .yield | .stop | .cputimes _ | .puts _ | .getpid | .sleep _ | .timer
  | .sighandler _ _ | .sigreturn _ _ _ | .wait _ | .openDevice _ | .close _ | .write _ _ _
  | .ioctl _ _ _ | .keyboard | .bad _ => isTrue trivial

/-- The guard of a run: the queues stay in order, the idle process runs its loop, and no
signal 31 reaches it. -/
def KeepsIdle (env : Env) (kernel : Kernel) (p : Slot) (request : Request) : Prop :=
  Orderly env kernel p request ∧ (p = idle → request.IsIdle) ∧ SparesIdle kernel request

instance (env : Env) (kernel : Kernel) (p : Slot) (request : Request) :
    Decidable (KeepsIdle env kernel p request) :=
  inferInstanceAs (Decidable (_ ∧ _))

variable {env : Env} {kernel kernel' : Kernel} {s s' : Schedule} {p p' : Slot} {ports : Ports}
  {request : Request} {action : Action} {d d' : Dispatcher}

theorem serve_nextCalled (called : nextCalled env kernel p request = some kernel') :
    serve env kernel p ports request = reschedule kernel' := by
  cases request with
  | yield =>
      simp only [nextCalled, Option.some.injEq] at called
      rw [serve, called]
  | stop =>
      simp only [nextCalled, Option.some.injEq] at called
      rw [serve, called]
  | sleep len =>
      change (sleep kernel p len).bind reschedule = _
      rw [show sleep kernel p len = some kernel' from called, Option.bind_some]
  | timer =>
      obtain ⟨ticked, isTick, rfl⟩ := Option.map_eq_some_iff.mp called
      rw [serve, isTick, Option.bind_some]
  | wait pid =>
      simp only [nextCalled] at called
      split at called
      · cases called
      · rename_i found
        split at called
        · cases called
        · rename_i nonzero
          cases called
          simp only [serve, found, if_neg nonzero]
  | read fd buff bufflen =>
      obtain ⟨⟨value, read⟩, answer, rest⟩ := Option.bind_eq_some_iff.mp called
      simp only at rest
      split at rest
      · rename_i gives
        cases rest
        simp only [serve, answer, Option.bind_some, if_pos gives]
      · cases rest
  | _ => simp [nextCalled] at called

/-! The queue when `next` is called. -/

theorem nextCalled_queue (rep : Represents kernel s) (live : s.Live p)
    (orderly : Orderly env kernel p request)
    (called : nextCalled env kernel p request = some kernel') :
    ∃ rq, ReadyQueue kernel' rq ∧ (∀ i ∈ s.queue, i ∈ rq) ∧ (request.IsIdle → p ∈ rq) := by
  have sound := live.toSound
  have awake : s.state p ≠ .sleep := by simp [live.running]
  cases request with
  | yield =>
      simp only [nextCalled, Option.some.injEq] at called
      subst called
      have rep' := rep.enqueue sound live.absent awake
      exact ⟨_, rep'.ready, fun i queued => by simp [queued], fun _ => by simp⟩
  | stop =>
      simp only [nextCalled, Option.some.injEq] at called
      subst called
      have rep' : Represents (kernel.modify p fun pcb => { pcb with state := .stopped })
          (s.setState p .stopped) :=
        rep.modify p _ _ (fun _ => rfl) (fun _ => rfl) (fun _ => rfl)
      exact ⟨_, rep'.ready, fun _ => id, False.elim⟩
  | sleep len =>
      have slept : sleep kernel p len = some kernel' := called
      by_cases zero : len < 1
      · rw [sleep, if_pos zero, Option.some.injEq] at slept
        subst slept
        have rep' := rep.enqueue sound live.absent awake
        exact ⟨_, rep'.ready, fun i queued => by simp [queued], False.elim⟩
      · obtain ⟨asleep, slept', rep'⟩ := rep.fallAsleep sound live.absent awake zero
        rw [slept', Option.some.injEq] at slept
        subst slept
        exact ⟨_, rep'.ready, fun _ => id, False.elim⟩
  | timer =>
      obtain ⟨ticked, isTick, rfl⟩ := Option.map_eq_some_iff.mp called
      obtain ⟨awakened, ticked', rep'⟩ := rep.tick sound
      rw [ticked', Option.some.injEq] at isTick
      subst isTick
      have tick := live.tick
      have counted := rep'.modify_hidden p (fun pcb => { pcb with cpuTime := pcb.cpuTime + 1 })
        (fun _ => rfl) (fun _ => rfl) (fun _ => rfl)
      have queued := counted.enqueue tick.toSound tick.absent (by simp [tick.running])
      exact ⟨_, queued.ready, fun i isIn => by simp [isIn], fun _ => by simp⟩
  | wait pid =>
      simp only [nextCalled] at called
      split at called
      · cases called
      · split at called
        · cases called
        · cases called
          have rep' : Represents (kernel.modify p fun pcb =>
              { pcb with state := .wait, waitpid := pid, ret := 0 })
              (s.set p fun entry => { entry with state := .wait, waitpid := pid, ret := 0 }) :=
            rep.modify p _ _ (fun _ => rfl) (fun _ => rfl) (fun _ => rfl)
          exact ⟨_, rep'.ready, fun _ => id, False.elim⟩
  | read fd buff bufflen =>
      obtain ⟨⟨value, read⟩, answer, rest⟩ := Option.bind_eq_some_iff.mp called
      simp only at rest
      split at rest
      · rename_i gives
        cases rest
        rcases diRead_cases answer with ⟨_, running⟩ | ⟨eof, _⟩ | ⟨_, middle, stays, rfl⟩ |
          ⟨_, _, stays⟩
        · exact absurd gives running
        · exact absurd eof orderly
        · have rep' := (rep.touches stays.toTouches).modify p
            (fun pcb => { pcb with state := .blocked })
            (fun entry => { entry with state := .blocked })
            (fun _ => rfl) (fun _ => rfl) (fun _ => rfl)
          exact ⟨_, rep'.ready, fun _ => id, False.elim⟩
        · exact ⟨_, (rep.touches stays.toTouches).ready, fun _ => id, False.elim⟩
      · cases rest
  | _ => simp [nextCalled] at called

/-! Runs. -/

def IdleReady (s : Schedule) (p : Slot) : Prop := p = idle ∨ idle ∈ s.queue

theorem IdleReady.pop (ready : idle ∈ s.queue) (popped : s.pop = some (s', p')) :
    IdleReady s' p' := by
  obtain ⟨split, _⟩ := Schedule.pop_eq_some.mp popped
  rw [split] at ready
  rcases List.mem_cons.mp ready with isFirst | queued
  · exact Or.inl isFirst.symm
  · exact Or.inr queued

theorem interrupt_queue (target : Slot) {i : Slot} (queued : i ∈ s.queue) :
    i ∈ (s.interrupt target).queue := by
  unfold Schedule.interrupt
  split
  · simp [queued]
  · exact queued

theorem remove_queue {target i : Slot} (other : i ≠ target) (queued : i ∈ s.queue) :
    i ∈ (s.remove target).queue := by
  unfold Schedule.remove
  split
  · exact (List.mem_erase_of_ne other).mpr queued
  · exact queued

theorem performs_idle (performs : Performs env kernel p request action) (isIdle : request.IsIdle) :
    action = .yield ∨ action = .timer ∨ action = .stay := by
  cases performs with
  | yield => exact Or.inl rfl
  | timer => exact Or.inr (Or.inl rfl)
  | stay _ => exact Or.inr (Or.inr rfl)
  | _ => exact isIdle.elim

theorem performs_kill {target : Slot} (performs : Performs env kernel p request (.kill target true))
    (spares : SparesIdle kernel request) : idle ≠ target := by
  generalize fatal : true = isFatal at performs
  cases performs with
  | kill reached =>
      rintro rfl
      exact spares (of_decide_eq_true fatal.symm) reached

theorem after_idleReady (ready : IdleReady s p) (keeps : KeepsIdle env kernel p request)
    (performs : Performs env kernel p request action)
    (done : s.after p action = some (s', p')) : IdleReady s' p' := by
  obtain ⟨_, loops, spares⟩ := keeps
  rcases ready with isIdle | queued
  · rcases performs_idle performs (loops isIdle) with rfl | rfl | rfl
    · exact IdleReady.pop (by simp [isIdle]) done
    · exact IdleReady.pop (by simp [isIdle]) done
    · cases done
      exact Or.inl isIdle
  · cases action with
    | stay =>
        cases done
        exact Or.inr queued
    | create i pid =>
        cases done
        exact Or.inr (by simp [queued])
    | kill target fatal =>
        simp only [Schedule.after, Option.some.injEq, Prod.mk.injEq] at done
        obtain ⟨rfl, rfl⟩ := done
        have woken := interrupt_queue target queued
        cases fatal with
        | false => exact Or.inr woken
        | true =>
            have other := performs_kill performs spares
            exact Or.inr (List.mem_append_left _ (remove_queue other woken))
    | yield => exact IdleReady.pop (by simp [queued]) done
    | timer => exact IdleReady.pop (by simp [queued]) done
    | _ =>
        refine IdleReady.pop ?_ done
        exact queued

theorem keepsIdle_preserved : Preserved env (KeepsIdle env) IdleReady where
  orderly := fun keeps => keeps.1
  silent := fun _ _ ready => ready
  after := fun _ _ keeps performs ready done => after_idleReady ready keeps performs done

/-- The idle process, which is the first to run, runs or is ready in every state, and `next`
is never called on an empty queue, in the runs in which the idle process runs its loop, no
signal 31 reaches it, and the queues stay in order. -/
theorem next_finds_process {env : Env} {traps : List Trap} {start d : Dispatcher}
    (booted : boot env = some start) (first : start.current = idle)
    (along : Along (dispatch env) (Guarded (KeepsIdle env)) start traps)
    (reached : run (dispatch env) start traps = some d) :
    (d.current = idle ∨ ∃ rq, ReadyQueue d.kernel rq ∧ idle ∈ rq) ∧
    ∀ (trap : Trap) (kernel : Kernel), Guarded (KeepsIdle env) d trap →
      nextCalled env (d.entered trap) d.current (d.request trap) = some kernel →
        dispatch env d trap = reschedule kernel ∧ kernel.head ≠ none := by
  obtain ⟨s₀, s₁, built, popped, rep₁⟩ := boot_built booted
  have holds : Holds IdleReady d := keepsIdle_preserved.run
    ⟨s₁, rep₁, built.sound.pop popped, Or.inl first⟩ along reached
  obtain ⟨s, rep, live, ready⟩ := holds
  refine ⟨ready.imp id fun queued => ⟨s.queue, rep.ready, queued⟩,
    fun trap kernel keeps called => ?_⟩
  have entered := rep.touches (contextswitch_private d.kernel d.current trap).toTouches
  obtain ⟨rq, queue, kept, own⟩ := nextCalled_queue entered (live.setRet _ _) keeps.1 called
  have isReady : idle ∈ rq := by
    rcases ready with isIdle | queued
    · rw [← isIdle]
      exact own (keeps.2.1 isIdle)
    · exact kept idle queued
  refine ⟨by rw [Dispatcher.dispatch_eq, serve_nextCalled called], fun empty => ?_⟩
  have chain := queue.chain
  cases rq with
  | nil => cases isReady
  | cons i rest =>
      have head := chain.1
      rw [empty] at head
      cases head

def killedRun : List Trap :=
  [sysyield sampleFrame, syscreate sampleFrame 0x5000 0, syskill sampleFrame 3 31,
    sysstop sampleFrame]

theorem next_finds_process_killed : ∃ (start d : Dispatcher), boot sampleEnv = some start ∧
    run (dispatch sampleEnv) start killedRun = some d ∧
    (d.current = idle ∨ ∃ rq, ReadyQueue d.kernel rq ∧ idle ∈ rq) := by
  have check : ∃ start ∈ boot sampleEnv, start.current = idle ∧
      Along (dispatch sampleEnv) (Guarded (KeepsIdle sampleEnv)) start killedRun ∧
      ∃ d ∈ run (dispatch sampleEnv) start killedRun, True := by
    decide +kernel
  obtain ⟨start, booted, first, along, d, reached, _⟩ := check
  exact ⟨start, d, booted, reached, (next_finds_process booted first along reached).1⟩

/-- The second process sends signal 31 to the idle process and stops. -/
theorem next_finds_process_broken : ∃ d kernel, Reaches sampleEnv anyRequest
      [sysyield sampleFrame, syskill sampleFrame 1 31] d ∧
    nextCalled sampleEnv (d.entered (sysstop sampleFrame)) d.current
      (d.request (sysstop sampleFrame)) = some kernel ∧ kernel.head = none := by
  obtain ⟨d, reaches, kernel, called, empty⟩ := reaches_of_check sampleEnv anyRequest
    [sysyield sampleFrame, syskill sampleFrame 1 31]
    (fun d => ∃ kernel ∈ nextCalled sampleEnv (d.entered (sysstop sampleFrame)) d.current
      (d.request (sysstop sampleFrame)), kernel.head = none) (by decide +kernel)
  exact ⟨d, kernel, reaches, called, empty⟩

end XerosKernel
