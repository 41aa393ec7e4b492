import XerosKernel.Countdown
import XerosKernel.IdleProcess
import XerosKernel.SleepContract

/-!
No ready process waits forever. The place of a process in the ready queue bounds the number of timer
interrupts until it runs, whatever the processes in front of it do.
-/

namespace XerosKernel

open Execution IntrusiveList

/-! The place in the queue. -/

namespace Schedule

def Behind (s : Schedule) (i : Slot) (k : Nat) : Prop :=
  ∃ front rest, s.queue = front ++ i :: rest ∧ front.length = k

variable {s s' : Schedule} {p p' i target : Slot} {k : Nat} {action : Action}

theorem Behind.more {more : List Slot} (behind : s.Behind i k)
    (queue : s'.queue = s.queue ++ more) : s'.Behind i k := by
  obtain ⟨front, rest, split, length⟩ := behind
  refine ⟨front, rest ++ more, ?_, length⟩
  rw [queue, split, List.append_assoc, List.cons_append]

theorem Behind.pop (behind : s.Behind i k) (popped : s.pop = some (s', p')) :
    p' = i ∨ ∃ k', k' + 1 ≤ k ∧ s'.Behind i k' := by
  obtain ⟨front, rest, split, length⟩ := behind
  obtain ⟨queue, _⟩ := pop_eq_some.mp popped
  rw [split] at queue
  cases front with
  | nil => exact Or.inl (List.cons.inj queue).1.symm
  | cons first front =>
      refine Or.inr ⟨front.length, ?_, front, rest, (List.cons.inj queue).2.symm, rfl⟩
      rw [← length, List.length_cons]

theorem Behind.erase (behind : s.Behind i k) (other : target ≠ i) :
    ∃ front rest, s.queue.erase target = front ++ i :: rest ∧ front.length ≤ k := by
  obtain ⟨front, rest, split, length⟩ := behind
  rw [split]
  by_cases ahead : target ∈ front
  · refine ⟨front.erase target, rest, List.erase_append_left _ ahead, ?_⟩
    rw [← length]
    exact List.length_erase_le
  · refine ⟨front, rest.erase target, ?_, length.le⟩
    rw [List.erase_append_right _ ahead, List.erase_cons_tail]
    simp [Ne.symm other]

theorem Behind.interrupt (behind : s.Behind i k) (target : Slot) :
    (s.interrupt target).Behind i k := by
  unfold Schedule.interrupt
  split
  · exact behind.more rfl
  · exact behind

theorem Behind.remove (behind : s.Behind i k) (other : target ≠ i) :
    ∃ k', k' ≤ k ∧ (s.remove target).Behind i k' := by
  unfold Schedule.remove
  split
  · obtain ⟨front, rest, split', fewer⟩ := behind.erase other
    exact ⟨front.length, fewer, front, rest, split', rfl⟩
  · exact ⟨k, Nat.le_refl k, behind⟩

/-- An action brings `i` nearer to the head of the queue, the timer by one place at least. -/
theorem Behind.after (behind : s.Behind i k) (spared : action ≠ .kill i true)
    (done : s.after p action = some (s', p')) :
    p' = i ∨ ∃ k', k' + (if action = .timer then 1 else 0) ≤ k ∧ s'.Behind i k' := by
  have pops : ∀ {middle : Schedule} {more : List Slot}, middle.pop = some (s', p') →
      middle.queue = s.queue ++ more →
      p' = i ∨ ∃ k', k' + (if action = .timer then 1 else 0) ≤ k ∧ s'.Behind i k' := by
    intro middle more popped queue
    rcases (behind.more queue).pop popped with runs | ⟨k', fewer, nearer⟩
    · exact Or.inl runs
    · refine Or.inr ⟨k', ?_, nearer⟩
      split <;> omega
  cases action with
  | stay =>
      cases done
      exact Or.inr ⟨k, by simp, behind⟩
  | create j pid =>
      cases done
      exact Or.inr ⟨k, by simp, behind.more rfl⟩
  | yield => exact pops done rfl
  | stop => exact pops done (List.append_nil _).symm
  | wait pid => exact pops done (List.append_nil _).symm
  | block => exact pops done (List.append_nil _).symm
  | drop => exact pops done (List.append_nil _).symm
  | sleep ticks => exact pops done (List.append_nil _).symm
  | timer => exact pops done (List.append_assoc _ _ _)
  | kill target fatal =>
      simp only [Schedule.after, Option.some.injEq, Prod.mk.injEq] at done
      obtain ⟨rfl, rfl⟩ := done
      refine Or.inr ?_
      cases fatal with
      | false => exact ⟨k, by simp, behind.interrupt target⟩
      | true =>
          have other : target ≠ i := by
            rintro rfl
            exact spared rfl
          obtain ⟨k', fewer, nearer⟩ := (behind.interrupt target).remove other
          exact ⟨k', by simpa using fewer, nearer.more rfl⟩

theorem Live.behind (live : Live s p) (behind : s.Behind i k) : k + 2 ≤ MAX_PROC := by
  obtain ⟨front, rest, split, rfl⟩ := behind
  have unique : (p :: s.queue).Nodup := List.nodup_cons.mpr ⟨live.absent, live.nodup⟩
  have few := unique.length_le_card
  rw [split, Fintype.card_fin] at few
  simp only [List.length_cons, List.length_append] at few
  omega

end Schedule

/-! Rounds. -/

def SparesReady (i : Slot) (kernel : Kernel) : Request → Prop
  | .kill pid signum => signum = 31 → killTarget kernel pid signum ≠ some i
  | _ => True

instance (i : Slot) (kernel : Kernel) : (request : Request) → Decidable (SparesReady i kernel request)
  | .kill _ _ => inferInstanceAs (Decidable (_ → _))
  | .create _ _ | .yield | .stop | .cputimes _ | .puts _ | .getpid | .sleep _ | .timer
  | .sighandler _ _ | .sigreturn _ _ _ | .wait _ | .openDevice _ | .close _ | .read _ _ _
  | .write _ _ _ | .ioctl _ _ _ | .keyboard | .bad _ => isTrue trivial

def KeepsReady (env : Env) (i : Slot) (kernel : Kernel) (p : Slot) (request : Request) : Prop :=
  Orderly env kernel p request ∧ SparesReady i kernel request

instance (env : Env) (i : Slot) (kernel : Kernel) (p : Slot) (request : Request) :
    Decidable (KeepsReady env i kernel p request) := inferInstanceAs (Decidable (_ ∧ _))

variable {env : Env} {kernel : Kernel} {p i : Slot} {request : Request} {action : Action}
  {d d' : Dispatcher} {trap : Trap} {k : Nat}

theorem Performs.spares (performs : Performs env kernel p request action)
    (spares : SparesReady i kernel request) : action ≠ .kill i true := by
  cases performs with
  | kill reached =>
      intro same
      obtain ⟨rfl, fatal⟩ := Action.kill.inj same
      exact spares (of_decide_eq_true fatal) reached
  | _ => simp

def Waits (i : Slot) (k : Nat) : Dispatcher → Prop := Holds fun s _ => s.Behind i k

theorem waits_advances (env : Env) (i : Slot) :
    Advances (dispatch env) (Guarded (KeepsReady env i)) Trap.isTick (Waits i)
      (fun d => d.current = i) := by
  rintro k d trap d' ⟨s, rep, live, behind⟩ ⟨orderly, spares⟩ stepped
  obtain ⟨action, s', performs, step, rep', live'⟩ := guarded_round rep live orderly stepped
  obtain ⟨value, value', middle, done, rfl⟩ := step
  have behind' : (s.setRet d.current value).Behind i k := behind
  have timer : action = .timer ↔ trap.isTick = true := performs.timer_iff.trans request_timer
  rcases behind'.after (performs.spares spares) done with runs | ⟨k', fewer, nearer⟩
  · exact Or.inl runs
  · refine Or.inr ⟨k', ?_, _, rep', live', nearer⟩
    cases isTick : trap.isTick with
    | true =>
        rw [if_pos (timer.mpr isTick)] at fewer
        exact fewer
    | false =>
        simp only [Bool.toNat_false]
        omega

theorem holds_true (env : Env) : Preserved env (Orderly env) fun _ _ => True where
  orderly := id
  silent := fun _ _ _ => trivial
  after := fun _ _ _ _ _ _ => trivial

/-- A process on the ready queue gets the processor with the timer interrupt that comes after one
for each process in front of it, or earlier, whatever the processes ask for: there are fewer than
`MAX_PROC - 1` in front of it. -/
theorem ready_process_runs {env : Env} {i : Slot} {before after : List Trap} {d d' : Dispatcher}
    {front rest : List Slot} (reaches : Reaches env (Orderly env) before d)
    (waiting : Chain d.kernel.link d.kernel.head (front ++ i :: rest))
    (along : Along (dispatch env) (Guarded (KeepsReady env i)) d after)
    (reached : run (dispatch env) d after = some d') (enough : front.length < ticks after) :
    front.length + 2 ≤ MAX_PROC ∧
    ∃ first second middle, after = first ++ second ∧
      run (dispatch env) d first = some middle ∧ middle.current = i ∧
      ticks first ≤ front.length + 1 := by
  obtain ⟨s, rep, live, _⟩ := (holds_true env).reaches (fun _ _ _ _ _ => trivial) reaches
  have behind : s.Behind i front.length :=
    ⟨front, rest, rep.ready.chain.unique waiting, rfl⟩
  exact ⟨live.behind behind,
    run_countdown (waits_advances env i) ⟨s, rep, live, behind⟩ along reached enough⟩

theorem ready_process_runs_first : ∃ (d d' : Dispatcher),
    Reaches sampleEnv (Orderly sampleEnv) creatorRun d ∧ d.current = 3 ∧
    Chain d.kernel.link d.kernel.head ([2] ++ 1 :: []) ∧
    run (dispatch sampleEnv) d [syskill sampleFrame 99 5, timerTrap, timerTrap] = some d' ∧
    ∃ first second middle, [syskill sampleFrame 99 5, timerTrap, timerTrap] = first ++ second ∧
      run (dispatch sampleEnv) d first = some middle ∧ middle.current = 1 ∧ ticks first ≤ 2 := by
  obtain ⟨d, reaches, check⟩ := reaches_of_check sampleEnv (Orderly sampleEnv) creatorRun
    (fun d => d.current = 3 ∧ d.kernel.head = some 2 ∧ d.kernel.link 2 = some 1 ∧
      d.kernel.link 1 = none ∧
      Along (dispatch sampleEnv) (Guarded (KeepsReady sampleEnv 1)) d
        [syskill sampleFrame 99 5, timerTrap, timerTrap] ∧
      ∃ d' ∈ run (dispatch sampleEnv) d [syskill sampleFrame 99 5, timerTrap, timerTrap], True)
    (by decide +kernel)
  obtain ⟨runs, head, first, last, along, d', reached, _⟩ := check
  have chain : Chain d.kernel.link d.kernel.head ([2] ++ 1 :: []) := ⟨head, first, last⟩
  exact ⟨d, d', reaches, runs, chain, reached,
    (ready_process_runs reaches chain along reached (by decide)).2⟩

/-! Sleepers. -/

/-- The sleeps last whole ticks, the queues stay in order, and `i` stays on them. -/
def KeepsSleeper (env : Env) (i : Slot) (kernel : Kernel) (p : Slot) (request : Request) : Prop :=
  Punctual env kernel p request ∧ SparesReady i kernel request

instance (env : Env) (i : Slot) (kernel : Kernel) (p : Slot) (request : Request) :
    Decidable (KeepsSleeper env i kernel p request) := inferInstanceAs (Decidable (_ ∧ _))

def RunsIn (i : Slot) (k : Nat) (d : Dispatcher) : Prop :=
  (∃ time, 0 < time ∧ time + (MAX_PROC - 2) ≤ k ∧ SleepsFor d i time) ∨ Waits i k d

theorem SleepsFor.step_due (sleeps : SleepsFor d i 1) (punctual : Guarded (Punctual env) d trap)
    (tick : trap.isTick = true) (stepped : dispatch env d trap = some d') :
    d'.current = i ∨ ∃ k, k + 2 ≤ MAX_PROC ∧ Waits i k d' := by
  obtain ⟨s, rep, live, sleeps⟩ := sleeps
  obtain ⟨action, s', performs, step, rep', live'⟩ :=
    guarded_round rep live punctual.orderly stepped
  obtain ⟨value, value', middle, done, rfl⟩ := step
  obtain rfl := performs.timer_iff.mpr (request_timer.mpr tick)
  have sleeps' : (s.setRet d.current value).Sleeps i 1 := sleeps
  obtain ⟨_, _, place, _⟩ := sleeps'.after_last_tick (live.setRet _ _) done
  rcases place with runs | queued
  · exact Or.inl runs.symm
  · obtain ⟨front, rest, split⟩ := List.append_of_mem queued
    have behind : (middle.setRet d.current value').Behind i front.length := ⟨front, rest, split, rfl⟩
    exact Or.inr ⟨front.length, live'.behind behind, _, rep', live', behind⟩

theorem runsIn_advances (env : Env) (i : Slot) :
    Advances (dispatch env) (Guarded (KeepsSleeper env i)) Trap.isTick (RunsIn i)
      (fun d => d.current = i) := by
  rintro k d trap d' (⟨time, positive, bound, sleeps⟩ | waits) ⟨punctual, spares⟩ stepped
  · cases tick : trap.isTick with
    | false =>
        exact Or.inr ⟨k, Nat.le_refl k,
          Or.inl ⟨time, positive, bound, sleeps.step_other punctual tick stepped⟩⟩
    | true =>
        by_cases due : time = 1
        · subst due
          rcases sleeps.step_due punctual tick stepped with runs | ⟨k', few, waits⟩
          · exact Or.inl runs
          · refine Or.inr ⟨k', ?_, Or.inr waits⟩
            simp only [Bool.toNat_true]
            omega
        · obtain ⟨later, rfl⟩ : ∃ later, time = later + 2 := ⟨time - 2, by omega⟩
          have nearer := sleeps.step_tick punctual tick stepped
          refine Or.inr ⟨k - 1, ?_, Or.inl ⟨later + 1, by omega, by omega, nearer⟩⟩
          simp only [Bool.toNat_true]
          omega
  · have guarded : Guarded (KeepsReady env i) d trap := ⟨punctual.orderly, spares⟩
    rcases waits_advances env i k d trap d' waits guarded stepped with runs | ⟨k', fewer, nearer⟩
    · exact Or.inl runs
    · exact Or.inr ⟨k', fewer, Or.inr nearer⟩

/-- A process that sleeps does not run until the whole ticks have passed, and it runs again at the
latest with the timer interrupt number `MAX_PROC - 1` behind them, if nobody's sleep is shorter than
a tick, the queues stay in order, and it is not sent signal 31. -/
theorem sleeper_runs {env : Env} {before after : List Trap} {call : Trap} {len : Word}
    {d₁ d₂ d₃ : Dispatcher} (reaches : Reaches env (Punctual env) before d₁)
    (request : d₁.request call = .sleep len) (long : 10 ≤ len)
    (called : dispatch env d₁ call = some d₂)
    (along : Along (dispatch env) (Guarded (KeepsSleeper env d₁.current)) d₂ after)
    (reached : run (dispatch env) d₂ after = some d₃) :
    (∀ first second middle, after = first ++ second →
      run (dispatch env) d₂ first = some middle → middle.current = d₁.current →
        len.toNat / 10 ≤ ticks first) ∧
    (len.toNat / 10 + (MAX_PROC - 1) ≤ ticks after →
      ∃ first second middle, after = first ++ second ∧
        run (dispatch env) d₂ first = some middle ∧ middle.current = d₁.current ∧
        ticks first ≤ len.toNat / 10 + (MAX_PROC - 1)) := by
  have initial : ∀ (s s' : Schedule) p, s.Built → s.pop = some (s', p) →
      DeltaList.Pending s'.sleepers := by
    intro s s' p built popped
    rw [Schedule.pop_sleepers popped, built.sleepers]
    trivial
  have holds := (pending_preserved env).reaches initial reaches
  have sleeps := sleeps_of_call holds request long called
  have positive : 0 < len.toNat / 10 := by
    have bound : 10 ≤ len.toNat := long
    omega
  constructor
  · rintro first second middle rfl runs current
    by_contra early
    have punctual : Along (dispatch env) (Guarded (Punctual env)) d₂ first :=
      along_imp (fun d trap guarded => guarded.1) (along_append along runs).1
    obtain ⟨s, _, live, asleep⟩ := sleeps.run (by omega) punctual runs
    have state := live.asleep asleep
    rw [← current, live.running] at state
    cases state
  · intro enough
    have places : MAX_PROC - 2 + 1 = MAX_PROC - 1 := rfl
    obtain ⟨first, second, middle, split, runs, current, few⟩ :=
      run_countdown (runsIn_advances env d₁.current)
        (Or.inl ⟨_, positive, Nat.le_refl _, sleeps⟩) along reached
        (by rw [ticks] at enough; omega)
    refine ⟨first, second, middle, split, runs, current, ?_⟩
    rw [ticks]
    omega

theorem sleeper_runs_tick : ∃ (d₁ d₂ d₃ : Dispatcher),
    Reaches sampleEnv (Punctual sampleEnv) creatorRun d₁ ∧
    dispatch sampleEnv d₁ (syssleep sampleFrame 10) = some d₂ ∧
    run (dispatch sampleEnv) d₂ (List.replicate 64 timerTrap) = some d₃ ∧
    (∀ first second middle, List.replicate 64 timerTrap = first ++ second →
      run (dispatch sampleEnv) d₂ first = some middle → middle.current = d₁.current →
        1 ≤ ticks first) ∧
    ∃ first second middle, List.replicate 64 timerTrap = first ++ second ∧
      run (dispatch sampleEnv) d₂ first = some middle ∧ middle.current = d₁.current := by
  obtain ⟨d₁, reaches, check⟩ := reaches_of_check sampleEnv (Punctual sampleEnv) creatorRun
    (fun d₁ => d₁.request (syssleep sampleFrame 10) = .sleep 10 ∧
      ∃ d₂ ∈ dispatch sampleEnv d₁ (syssleep sampleFrame 10),
        Along (dispatch sampleEnv) (Guarded (KeepsSleeper sampleEnv d₁.current)) d₂
          (List.replicate 64 timerTrap) ∧
        ∃ d₃ ∈ run (dispatch sampleEnv) d₂ (List.replicate 64 timerTrap), True) (by decide +kernel)
  obtain ⟨request, d₂, called, along, d₃, reached, _⟩ := check
  obtain ⟨early, late⟩ := sleeper_runs reaches request (by decide) called along reached
  obtain ⟨first, second, middle, split, runs, current, _⟩ := late (by decide)
  exact ⟨d₁, d₂, d₃, reaches, called, reached, early, first, second, middle, split, runs, current⟩

end XerosKernel
