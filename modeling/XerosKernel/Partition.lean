import XerosKernel.Runs

/-!
Every process in its place. As long as no signal breaks a queue and no read of a device
mistakes its caller for a blocked or a woken process, a process is running, on the ready
queue, on the sleep queue or on none, as its state says.
-/

namespace XerosKernel

open IntrusiveList Execution

inductive Placed (d : Dispatcher) (rq sq : List Slot) (i : Slot) : Prop
  | current (runs : i = d.current) (notReady : i ∉ rq) (notAsleep : i ∉ sq)
  | ready (other : i ≠ d.current) (state : (d.kernel.proctab i).state = .ready)
      (once : rq.count i = 1) (notAsleep : i ∉ sq)
  | sleep (other : i ≠ d.current) (state : (d.kernel.proctab i).state = .sleep)
      (notReady : i ∉ rq) (once : sq.count i = 1)
  | aside (other : i ≠ d.current)
      (state : (d.kernel.proctab i).state ∈ [ProcState.wait, .blocked, .stopped])
      (notReady : i ∉ rq) (notAsleep : i ∉ sq)

/-- The two queues are lists that end, have no process in common and hold every process
that belongs there. -/
def Partition (d : Dispatcher) : Prop :=
  ∃ rq sq, ReadyQueue d.kernel rq ∧ Chain d.kernel.link d.kernel.sleepQ sq ∧
    (∀ i ∈ rq, i ∉ sq) ∧ ∀ i, Placed d rq sq i

/-- No signal goes to a sleeping process, signal 31 takes no process off the ready queue, and
no read meets the end of the keyboard input or asks for -3 bytes of zeros. -/
def Tidy (env : Env) (kernel : Kernel) (p : Slot) : Request → Prop
  | .kill pid signum => ∀ target ∈ killTarget kernel pid signum,
      (kernel.proctab target).state ≠ .sleep ∧
      (signum = 31 → (kernel.proctab target).state ≠ .wait ∧
        ((kernel.proctab target).state = .ready → target = p))
  | .read fd buff bufflen =>
      ¬ ReadsEof env kernel p fd buff ∧ ¬ ReadsMinusThree env kernel p fd buff bufflen
  | _ => True

instance (env : Env) (kernel : Kernel) (p : Slot) :
    (request : Request) → Decidable (Tidy env kernel p request)
  | .kill _ _ => inferInstanceAs (Decidable (∀ _ ∈ _, _))
  | .read _ _ _ => inferInstanceAs (Decidable (_ ∧ _))
  | .create _ _ | .yield | .stop | .cputimes _ | .puts _ | .getpid | .sleep _ | .timer
  | .sighandler _ _ | .sigreturn _ _ _ | .wait _ | .openDevice _ | .close _ | .write _ _ _
  | .ioctl _ _ _ | .keyboard | .bad _ => isTrue trivial

namespace Schedule

structure Complete (s : Schedule) : Prop where
  queued : ∀ i, s.state i = .ready → i ∈ s.queue
  known : ∀ i, s.state i ∈ [ProcState.stopped, .ready, .wait, .sleep, .blocked]

structure Full (s : Schedule) (p : Slot) : Prop where
  queued : ∀ i, s.state i = .ready → i = p ∨ i ∈ s.queue
  known : ∀ i, s.state i ∈ [ProcState.stopped, .ready, .wait, .sleep, .blocked]

variable {s s' : Schedule} {p p' : Slot}

theorem Complete.pop (complete : Complete s) (popped : s.pop = some (s', p)) : Full s' p := by
  obtain ⟨split, rest⟩ := pop_eq_some.mp popped
  have states : ∀ i, s'.state i = s.state i := fun i => by rw [rest]; rfl
  constructor
  · intro i isReady
    have queued := complete.queued i ((states i).symm.trans isReady)
    simpa [split] using queued
  · intro i
    rw [states]
    exact complete.known i

theorem Complete.congr (complete : Complete s) (queue : s'.queue = s.queue)
    (state : ∀ i, s'.state i = s.state i) : Complete s' where
  queued := by simpa [queue, state] using complete.queued
  known := by simpa [state] using complete.known

theorem Full.leave (full : Full s p) {new : ProcState} (other : new ≠ .ready)
    (known : new ∈ [ProcState.stopped, .ready, .wait, .sleep, .blocked]) :
    Complete (s.setState p new) where
  queued := by
    intro i isReady
    rw [setState_state] at isReady
    split at isReady
    · exact absurd isReady other
    · rename_i notP
      exact (full.queued i isReady).resolve_left notP
  known := by
    intro i
    rw [setState_state]
    split
    · exact known
    · exact full.known i

theorem Full.more (full : Full s p) (woken : List Slot) (queue : s'.queue = s.queue ++ woken)
    (state : ∀ i, s'.state i = if i ∈ woken then .ready else s.state i) : Full s' p where
  queued := by
    intro i isReady
    rw [state] at isReady
    rw [queue, List.mem_append]
    split at isReady
    · rename_i isWoken
      exact Or.inr (Or.inr isWoken)
    · rcases full.queued i isReady with runs | queued
      · exact Or.inl runs
      · exact Or.inr (Or.inl queued)
  known := by
    intro i
    rw [state]
    split
    · simp
    · exact full.known i

theorem Full.enqueue (full : Full s p) : Complete (s.enqueue p) where
  queued := by
    intro i isReady
    rw [enqueue_state] at isReady
    rw [enqueue_queue, List.mem_append, List.mem_singleton]
    split at isReady
    · rename_i isP
      exact Or.inr isP
    · rename_i notP
      exact Or.inl ((full.queued i isReady).resolve_left notP)
  known := by
    intro i
    rw [enqueue_state]
    split
    · simp
    · exact full.known i

theorem Full.setRet (full : Full s p) (i : Slot) (value : Word) : Full (s.setRet i value) p where
  queued := by simpa using full.queued
  known := by simpa using full.known

theorem Full.interrupt (full : Full s p) (target : Slot) : Full (s.interrupt target) p := by
  unfold Schedule.interrupt
  split
  · refine (full.setRet target (-666)).more [target] rfl ?_
    intro i
    simp
  · exact full

theorem Full.release (full : Full s p) (target : Slot) : Full (s.release target) p :=
  full.more _ rfl fun i => endWait_state s i _

def Keeps (s : Schedule) (p : Slot) : Action → Prop
  | .drop => False
  | .kill target fatal => fatal = true →
      s.state target ≠ .wait ∧ (s.state target = .ready → target = p)
  | _ => True

theorem Full.after (full : Full s p) (live : s.Live p) {action : Action}
    (keeps : s.Keeps p action) (done : s.after p action = some (s', p')) : Full s' p' := by
  cases action with
  | stay =>
      cases done
      exact full
  | create i pid =>
      simp only [Schedule.after, Option.some.injEq, Prod.mk.injEq] at done
      obtain ⟨rfl, rfl⟩ := done
      refine full.more [i] rfl ?_
      intro j
      by_cases same : j = i <;> simp [Schedule.state, same]
  | yield => exact full.enqueue.pop done
  | stop =>
      have stopped : Complete (s.setState p .stopped) := full.leave (by simp) (by simp)
      exact stopped.pop done
  | wait pid =>
      have waits : Complete (s.setState p .wait) := full.leave (by simp) (by simp)
      have noted : Complete (s.set p fun entry =>
          { entry with state := .wait, waitpid := pid, ret := 0 }) := by
        refine waits.congr rfl ?_
        intro i
        by_cases same : i = p <;> simp [Schedule.state, setState, same]
      exact noted.pop done
  | block =>
      have blocked : Complete (s.setState p .blocked) := full.leave (by simp) (by simp)
      exact blocked.pop done
  | drop => exact keeps.elim
  | sleep ticks =>
      have asleep : Complete (s.setState p .sleep) := full.leave (by simp) (by simp)
      have inserted : Complete { s.setState p .sleep with
          sleepers := DeltaList.insert ticks p s.sleepers } := asleep.congr rfl fun _ => rfl
      exact inserted.pop done
  | timer =>
      have ticked : Full s.tick p := full.more _ rfl fun i => tick_state s i
      exact ticked.enqueue.pop done
  | kill target fatal =>
      simp only [Schedule.after, Option.some.injEq, Prod.mk.injEq] at done
      obtain ⟨rfl, rfl⟩ := done
      cases fatal with
      | false => exact full.interrupt target
      | true =>
          obtain ⟨notWait, onlySelf⟩ := keeps rfl
          have same : s.interrupt target = s := if_neg notWait
          simp only [same, if_true]
          refine Full.release ?_ target
          unfold remove
          split
          · rename_i isReady
            have isP := onlySelf isReady
            subst isP
            exact ⟨fun i ready => by
              simpa [List.erase_of_not_mem live.absent] using full.queued i ready, full.known⟩
          · exact full

theorem Built.complete {s : Schedule} (built : Built s) : Complete s := by
  induction built with
  | empty => constructor <;> simp [Schedule.empty, Schedule.state, Pcb.entry]
  | create built free slot complete =>
      rename_i s i pid
      have renamed : ∀ j, (s.set i fun entry => { entry with pid := pid }).state j = s.state j :=
        fun j => by by_cases same : j = i <;> simp [Schedule.state, same]
      constructor
      · intro j isReady
        rw [enqueue_state, renamed] at isReady
        rw [enqueue_queue, List.mem_append, List.mem_singleton]
        split at isReady
        · rename_i same
          exact Or.inr same
        · exact Or.inl (complete.queued j isReady)
      · intro j
        rw [enqueue_state, renamed]
        split
        · simp
        · exact complete.known j

end Schedule

theorem Tidy.orderly {env : Env} {kernel : Kernel} {p : Slot} {request : Request}
    (tidy : Tidy env kernel p request) : Orderly env kernel p request := by
  cases request with
  | kill pid signum => exact fun target reached => (tidy target reached).1
  | read fd buff bufflen => exact tidy.1
  | _ => trivial

theorem Tidy.keeps {env : Env} {kernel : Kernel} {s : Schedule} {p : Slot} {request : Request}
    {action : Action} (tidy : Tidy env kernel p request) (agrees : Agrees kernel s)
    (performs : Performs env kernel p request action) : s.Keeps p action := by
  cases performs with
  | kill reached =>
      intro fatal
      have onlySelf := (tidy _ reached).2 (by simpa using fatal)
      rwa [agrees.state] at onlySelf
  | drop short => exact absurd short tidy.2
  | _ => trivial

theorem full_preserved (env : Env) : Preserved env (Tidy env) Schedule.Full where
  orderly := fun tidy => tidy.orderly
  silent := fun i value full => full.setRet i value
  after := fun agrees live tidy performs full done =>
    full.after live (tidy.keeps agrees performs) done

theorem partition_of_full {d : Dispatcher} {s : Schedule} (rep : Represents d.kernel s)
    (live : s.Live d.current) (full : s.Full d.current) : Partition d := by
  refine ⟨s.queue, s.sleepers.map Prod.fst, rep.ready, rep.sleep.chain,
    fun i queued => live.toSound.apart queued, ?_⟩
  intro i
  have asleep := live.sleeping i
  by_cases runs : i = d.current
  · refine .current runs (runs ▸ live.absent) ?_
    rw [asleep, runs, live.running]
    simp
  · have known := full.known i
    cases state : s.state i with
    | ready =>
        have queued := (full.queued i state).resolve_left runs
        exact .ready runs ((rep.state i).trans state)
          (List.count_eq_one_of_mem live.nodup queued) (live.toSound.apart queued)
    | sleep =>
        have onSleepQ := asleep.mpr state
        exact .sleep runs ((rep.state i).trans state)
          (fun queued => live.toSound.apart queued onSleepQ)
          (List.count_eq_one_of_mem live.distinct onSleepQ)
    | wait | blocked | stopped =>
        refine .aside runs (by simp [rep.state, state]) ?_ ?_
        · intro queued
          rw [live.queued i queued] at state
          cases state
        · rw [asleep, state]
          simp
    | running | blockedSend | blockedRecv => simp [state] at known

/-- The partition in every state that a run of tidy requests reaches. -/
theorem partition_of_tidy {env : Env} {traps : List Trap} {d : Dispatcher}
    (reaches : Reaches env (Tidy env) traps d) : Partition d := by
  have initial : ∀ (s s' : Schedule) p, s.Built → s.pop = some (s', p) → s'.Full p :=
    fun s s' p built popped => built.complete.pop popped
  obtain ⟨s, rep, live, full⟩ := (full_preserved env).reaches initial reaches
  exact partition_of_full rep live full

theorem partition_of_tidy_sleep : ∃ d, Reaches sampleEnv (Tidy sampleEnv)
    (sleeperRun ++ [syswait sampleFrame 3]) d ∧ Partition d := by
  obtain ⟨d, reaches, _⟩ := reaches_of_check sampleEnv (Tidy sampleEnv)
    (sleeperRun ++ [syswait sampleFrame 3]) (fun _ => True) (by decide +kernel)
  exact ⟨d, reaches, partition_of_tidy reaches⟩

/-- A signal for a sleeping process puts it on the ready queue and leaves it on the other. -/
theorem partition_broken_by_kill : ∃ d, Reaches sampleEnv anyRequest
    (sleeperRun ++ [syskill sampleFrame 3 5]) d ∧ ¬ Partition d := by
  obtain ⟨d, reaches, current, sleepQ, state⟩ := reaches_of_check sampleEnv anyRequest
    (sleeperRun ++ [syskill sampleFrame 3 5])
    (fun d => d.current = 2 ∧ d.kernel.sleepQ = some 3 ∧ (d.kernel.proctab 3).state = .ready)
    (by decide +kernel)
  refine ⟨d, reaches, ?_⟩
  rintro ⟨rq, sq, _, chain, _, placed⟩
  have onSleepQ : (3 : Slot) ∈ sq := by
    have first := chain.head_eq
    rw [sleepQ] at first
    exact List.mem_of_head? first.symm
  cases placed 3 with
  | current runs notReady notAsleep => exact notAsleep onSleepQ
  | ready other state' once notAsleep => exact notAsleep onSleepQ
  | sleep other asleep notReady once => simp [state] at asleep
  | aside other idle notReady notAsleep => exact notAsleep onSleepQ

end XerosKernel
