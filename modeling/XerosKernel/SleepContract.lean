import XerosKernel.Runs

/-!
How long a process sleeps. While every sleep lasts a whole tick at least and no signal and
no end of input disturbs the queues, the differences of the sleep queue add up to the
deadline of each process, and `tick` wakes it when that many ticks have passed.
-/

namespace XerosKernel

open Execution

def Trap.isTick (trap : Trap) : Bool :=
  match trap.trapNo with
  | .timer => true
  | .keyboard => false
  | .kernel => trap.eax = SYS_TIMER

def ticks (traps : List Trap) : Nat := traps.countP Trap.isTick

/-- No sleep is shorter than a tick unless it is none, no signal goes to a sleeping process,
and no read meets the end of the keyboard input. -/
def Punctual (env : Env) (kernel : Kernel) (p : Slot) : Request → Prop
  | .sleep len => len < 1 ∨ 10 ≤ len
  | .kill pid signum => ∀ target ∈ killTarget kernel pid signum,
      (kernel.proctab target).state ≠ .sleep
  | .read fd buff _ => ¬ ReadsEof env kernel p fd buff
  | _ => True

instance (env : Env) (kernel : Kernel) (p : Slot) :
    (request : Request) → Decidable (Punctual env kernel p request)
  | .sleep _ => inferInstanceAs (Decidable (_ ∨ _))
  | .kill _ _ => inferInstanceAs (Decidable (∀ _ ∈ _, _))
  | .read _ _ _ => inferInstanceAs (Decidable (¬ _))
  | .create _ _ | .yield | .stop | .cputimes _ | .puts _ | .getpid | .timer
  | .sighandler _ _ | .sigreturn _ _ _ | .wait _ | .openDevice _ | .close _ | .write _ _ _
  | .ioctl _ _ _ | .keyboard | .bad _ => isTrue trivial

theorem Punctual.orderly {env : Env} {kernel : Kernel} {p : Slot} {request : Request}
    (punctual : Punctual env kernel p request) : Orderly env kernel p request := by
  cases request with
  | kill pid signum => exact punctual
  | read fd buff bufflen => exact punctual
  | _ => trivial

theorem decode_timer {kernel : Kernel} {p : Slot} {r : Word} :
    decode kernel p r = .timer ↔ r = SYS_TIMER := by
  unfold decode
  constructor
  · intro decoded
    split at decoded <;> first | exact BitVec.eq_of_toNat_eq ‹_› | cases decoded
  · rintro rfl
    rfl

theorem request_timer {d : Dispatcher} {trap : Trap} :
    d.request trap = .timer ↔ trap.isTick = true := by
  rw [Dispatcher.request, decode_timer, contextswitch, Trap.isTick]
  cases trap.trapNo with
  | timer => simp
  | keyboard => simp [SYS_TIMER, SYS_KEYBOARD]
  | kernel => simp

namespace Schedule

def Sleeps (s : Schedule) (i : Slot) (time : Nat) : Prop :=
  DeltaList.Pending s.sleepers ∧ (i, time) ∈ DeltaList.deadlines 0 s.sleepers

def Lasting : Action → Prop
  | .sleep ticks => 0 < ticks
  | _ => True

variable {s s' : Schedule} {p p' i : Slot} {time : Nat} {action : Action}

theorem Live.asleep (live : Live s p) (sleeps : s.Sleeps i time) : s.state i = .sleep := by
  rw [← live.sleeping, ← DeltaList.map_fst_deadlines 0]
  exact List.mem_map.mpr ⟨_, sleeps.2, rfl⟩

theorem pending_after (lasting : Lasting action) (pending : DeltaList.Pending s.sleepers)
    (done : s.after p action = some (s', p')) : DeltaList.Pending s'.sleepers := by
  rw [after_sleepers done]
  cases action with
  | sleep ticks => exact DeltaList.insert_pending lasting pending
  | timer =>
      rw [sleepersAfter, tickEntries_pending pending]
      exact DeltaList.tick_pending s.sleepers
  | _ => exact pending

theorem Sleeps.after_other (sleeps : s.Sleeps i time) (lasting : Lasting action)
    (other : action ≠ .timer) (done : s.after p action = some (s', p')) : s'.Sleeps i time := by
  refine ⟨pending_after lasting sleeps.1 done, ?_⟩
  rw [after_sleepers done]
  cases action with
  | timer => exact absurd rfl other
  | sleep ticks => exact DeltaList.mem_deadlines_insert.mpr (Or.inr sleeps.2)
  | _ => exact sleeps.2

theorem Sleeps.after_tick (sleeps : s.Sleeps i (time + 2))
    (done : s.after p .timer = some (s', p')) : s'.Sleeps i (time + 1) := by
  have lasting : Lasting .timer := trivial
  refine ⟨pending_after lasting sleeps.1 done, ?_⟩
  have nearer := DeltaList.mem_tick sleeps.1 sleeps.2
  rw [if_neg (Nat.succ_ne_zero time)] at nearer
  rw [after_sleepers done, sleepersAfter, tickEntries_pending sleeps.1]
  exact nearer

theorem Sleeps.after_last_tick (sleeps : s.Sleeps i 1) (live : s.Live p)
    (done : s.after p .timer = some (s', p')) :
    s'.state i = .ready ∧ (s'.table i).ret = 0 ∧ (i = p' ∨ i ∈ s'.queue) ∧ i ≠ p := by
  have notP : i ≠ p := by
    rintro rfl
    have asleep := live.asleep sleeps
    rw [live.running] at asleep
    cases asleep
  have woken : i ∈ (tickEntries s.sleepers).1 := by
    rw [tickEntries_pending sleeps.1]
    have due := DeltaList.mem_tick sleeps.1 sleeps.2
    rw [if_pos rfl] at due
    refine due.resolve_right fun left => ?_
    exact absurd ((DeltaList.tick_pending s.sleepers).deadline_pos left) (Nat.lt_irrefl 0)
  obtain ⟨split, rest⟩ := pop_eq_some.mp done
  have table : s'.table i = { s.table i with state := .ready, ret := 0 } := by
    rw [rest]
    simp [tick, notP, woken]
  refine ⟨by rw [state, table], by rw [table], ?_, notP⟩
  have queued : i ∈ (s.tick.enqueue p).queue := by simp [woken]
  rw [split, List.mem_cons] at queued
  exact queued

end Schedule

theorem Punctual.lasting {env : Env} {kernel : Kernel} {p : Slot} {request : Request}
    {action : Action} (punctual : Punctual env kernel p request)
    (performs : Performs env kernel p request action) : Schedule.Lasting action := by
  cases performs with
  | sleep positive =>
      rename_i len
      have long : 10 ≤ len := punctual.resolve_left positive
      rw [Schedule.Lasting, MILLISECONDS_TICK, BitVec.toNat_udiv]
      have bound : 10 ≤ len.toNat := long
      exact Nat.div_pos bound (by decide)
  | _ => trivial

theorem pending_preserved (env : Env) :
    Preserved env (Punctual env) fun s _ => DeltaList.Pending s.sleepers where
  orderly := fun punctual => punctual.orderly
  silent := fun _ _ pending => pending
  after := fun _ _ punctual performs pending done =>
    Schedule.pending_after (punctual.lasting performs) pending done

theorem Performs.timer_iff {env : Env} {kernel : Kernel} {p : Slot} {request : Request}
    {action : Action} (performs : Performs env kernel p request action) :
    action = .timer ↔ request = .timer := by
  cases performs with
  | stay isLocal =>
      constructor
      · intro same
        cases same
      · rintro rfl
        exact isLocal.elim
  | _ => simp

/-! The dispatcher. -/

section Dispatcher

variable {env : Env} {d d' : Dispatcher} {i : Slot} {time : Nat} {trap : Trap} {traps : List Trap}

def SleepsFor (d : Dispatcher) (i : Slot) (time : Nat) : Prop :=
  ∃ s, Represents d.kernel s ∧ s.Live d.current ∧ s.Sleeps i time

def Asleep (d : Dispatcher) (i : Slot) : Prop :=
  (d.kernel.proctab i).state = .sleep ∧
    ∃ entries, SleepQueue d.kernel entries ∧ i ∈ entries.map Prod.fst

/-- The process is back from its sleep: it is on the ready queue, or `next` took it from
there at once. -/
def Woken (d : Dispatcher) (i : Slot) : Prop :=
  (d.kernel.proctab i).state = .ready ∧ (d.kernel.proctab i).ret = 0 ∧
    (i = d.current ∨ ∃ rq, ReadyQueue d.kernel rq ∧ i ∈ rq)

theorem SleepsFor.asleep (sleeps : SleepsFor d i time) : Asleep d i := by
  obtain ⟨s, rep, live, sleeps⟩ := sleeps
  have state := live.asleep sleeps
  exact ⟨(rep.state i).trans state, s.sleepers, rep.sleep, (live.sleeping i).mpr state⟩

theorem SleepsFor.step_other (sleeps : SleepsFor d i time)
    (punctual : Guarded (Punctual env) d trap) (other : trap.isTick = false)
    (stepped : dispatch env d trap = some d') : SleepsFor d' i time := by
  obtain ⟨s, rep, live, sleeps⟩ := sleeps
  obtain ⟨action, s', performs, step, rep', live'⟩ :=
    guarded_round rep live punctual.orderly stepped
  obtain ⟨value, value', middle, done, rfl⟩ := step
  have notTimer : action ≠ .timer := by
    rw [ne_eq, performs.timer_iff, request_timer, other]
    simp
  have sleeps' : (s.setRet d.current value).Sleeps i time := sleeps
  have left := sleeps'.after_other (punctual.lasting performs) notTimer done
  exact ⟨_, rep', live', left⟩

theorem SleepsFor.step_tick (sleeps : SleepsFor d i (time + 2))
    (punctual : Guarded (Punctual env) d trap) (tick : trap.isTick = true)
    (stepped : dispatch env d trap = some d') : SleepsFor d' i (time + 1) := by
  obtain ⟨s, rep, live, sleeps⟩ := sleeps
  obtain ⟨action, s', performs, step, rep', live'⟩ :=
    guarded_round rep live punctual.orderly stepped
  obtain ⟨value, value', middle, done, rfl⟩ := step
  obtain rfl := performs.timer_iff.mpr (request_timer.mpr tick)
  have sleeps' : (s.setRet d.current value).Sleeps i (time + 2) := sleeps
  have left := sleeps'.after_tick done
  exact ⟨_, rep', live', left⟩

theorem SleepsFor.step_last_tick (sleeps : SleepsFor d i 1)
    (punctual : Guarded (Punctual env) d trap) (tick : trap.isTick = true)
    (stepped : dispatch env d trap = some d') : Woken d' i := by
  obtain ⟨s, rep, live, sleeps⟩ := sleeps
  obtain ⟨action, s', performs, step, rep', live'⟩ :=
    guarded_round rep live punctual.orderly stepped
  obtain ⟨value, value', middle, done, rfl⟩ := step
  obtain rfl := performs.timer_iff.mpr (request_timer.mpr tick)
  have sleeps' : (s.setRet d.current value).Sleeps i 1 := sleeps
  obtain ⟨isReady, ret, place, notP⟩ := sleeps'.after_last_tick (live.setRet _ _) done
  refine ⟨(rep'.state i).trans (by simpa using isReady), ?_, ?_⟩
  · have entry : (d'.kernel.proctab i).ret = _ := congrArg Entry.ret (rep'.table i)
    rw [entry, Schedule.setRet_table, if_neg notP, ret]
  · rcases place with runs | queued
    · exact Or.inl runs
    · exact Or.inr ⟨_, rep'.ready, queued⟩

theorem SleepsFor.run (sleeps : SleepsFor d i time) (early : ticks traps < time)
    (along : Along (dispatch env) (Guarded (Punctual env)) d traps)
    (reached : run (dispatch env) d traps = some d') : SleepsFor d' i (time - ticks traps) := by
  induction traps generalizing d time with
  | nil =>
      cases reached
      exact sleeps
  | cons trap rest ih =>
      obtain ⟨middle, stepped, tail⟩ := run_cons_eq_some.mp reached
      have along' := along.2 middle stepped
      rw [ticks, List.countP_cons, ← ticks] at early ⊢
      cases tick : trap.isTick with
      | false =>
          simp only [tick, Bool.false_eq_true, if_false] at early ⊢
          exact ih (sleeps.step_other along.1 tick stepped) early along' tail
      | true =>
          simp only [tick, if_true] at early ⊢
          obtain ⟨later, rfl⟩ : ∃ later, time = later + 2 := ⟨time - 2, by omega⟩
          have nearer := ih (sleeps.step_tick along.1 tick stepped) (by omega) along' tail
          rwa [show later + 2 - (ticks rest + 1) = later + 1 - ticks rest by omega]

theorem sleeps_of_call {call : Trap} {len : Word} (holds : Holds (fun s _ =>
      DeltaList.Pending s.sleepers) d) (request : d.request call = .sleep len) (long : 10 ≤ len)
    (called : dispatch env d call = some d') : SleepsFor d' d.current (len.toNat / 10) := by
  obtain ⟨s, rep, live, pending⟩ := holds
  have orderly : Orderly env (d.entered call) d.current (d.request call) := by
    rw [request]
    trivial
  obtain ⟨action, s', performs, step, rep', live'⟩ := guarded_round rep live orderly called
  obtain ⟨value, value', middle, done, rfl⟩ := step
  rw [request] at performs
  cases performs with
  | noSleep zero =>
      exact absurd long (by bv_omega)
  | sleep positive =>
      have pending' : DeltaList.Pending (s.setRet d.current value).sleepers := pending
      have lasting : Schedule.Lasting (.sleep (len / MILLISECONDS_TICK).toNat) := by
        have bound : 10 ≤ len.toNat := long
        exact Nat.div_pos bound (by decide)
      have left : middle.Sleeps d.current (len.toNat / 10) := by
        refine ⟨Schedule.pending_after lasting pending' done, ?_⟩
        rw [Schedule.after_sleepers done]
        refine DeltaList.mem_deadlines_insert.mpr (Or.inl ?_)
        rw [Nat.zero_add, MILLISECONDS_TICK, BitVec.toNat_udiv]
        rfl
      exact ⟨_, rep', live', left⟩
  | stay isLocal => exact isLocal.elim

end Dispatcher

/-- A process that calls `sleep` for whole ticks sleeps until that many have passed, and the
last of them puts it on the ready queue with the value 0. -/
theorem sleep_contract {env : Env} {before after : List Trap} {call : Trap} {len : Word}
    {d₁ d₂ d₃ : Dispatcher} (reaches : Reaches env (Punctual env) before d₁)
    (request : d₁.request call = .sleep len) (long : 10 ≤ len)
    (called : dispatch env d₁ call = some d₂)
    (along : Along (dispatch env) (Guarded (Punctual env)) d₂ after)
    (reached : run (dispatch env) d₂ after = some d₃) :
    (ticks after < len.toNat / 10 → Asleep d₃ d₁.current) ∧
    ∀ front last, after = front ++ [last] → last.isTick = true →
      ticks after = len.toNat / 10 → Woken d₃ d₁.current := by
  have initial : ∀ (s s' : Schedule) p, s.Built → s.pop = some (s', p) →
      DeltaList.Pending s'.sleepers := by
    intro s s' p built popped
    rw [Schedule.pop_sleepers popped, built.sleepers]
    trivial
  have holds := (pending_preserved env).reaches initial reaches
  have sleeps := sleeps_of_call holds request long called
  constructor
  · intro early
    exact (sleeps.run early along reached).asleep
  · rintro front last rfl tick due
    rw [run_append] at reached
    obtain ⟨middle, first, tail⟩ := Option.bind_eq_some_iff.mp reached
    obtain ⟨alongFront, alongLast⟩ := along_append along first
    obtain ⟨final, stepped, ended⟩ := run_cons_eq_some.mp tail
    cases ended
    have before : ticks front + 1 = len.toNat / 10 := by
      rw [← due, ticks, ticks, List.countP_append]
      simp [tick]
    have nearly := sleeps.run (by omega) alongFront first
    rw [show len.toNat / 10 - ticks front = 1 by omega] at nearly
    exact nearly.step_last_tick alongLast.1 tick stepped

theorem sleep_contract_two_ticks : ∃ d₁ d₃, Reaches sampleEnv (Punctual sampleEnv) creatorRun d₁ ∧
    (dispatch sampleEnv d₁ (syssleep sampleFrame 20)).bind
      (fun d₂ => run (dispatch sampleEnv) d₂ [timerTrap, timerTrap]) = some d₃ ∧
    Woken d₃ d₁.current := by
  obtain ⟨d₁, reaches, check⟩ := reaches_of_check sampleEnv (Punctual sampleEnv) creatorRun
    (fun d₁ => d₁.request (syssleep sampleFrame 20) = .sleep 20 ∧
      ∃ d₂ ∈ dispatch sampleEnv d₁ (syssleep sampleFrame 20),
        Along (dispatch sampleEnv) (Guarded (Punctual sampleEnv)) d₂ [timerTrap, timerTrap] ∧
        ∃ d₃ ∈ run (dispatch sampleEnv) d₂ [timerTrap, timerTrap], True) (by decide +kernel)
  obtain ⟨request, d₂, called, along, d₃, reached, _⟩ := check
  refine ⟨d₁, d₃, reaches, Option.bind_eq_some_iff.mpr ⟨d₂, called, reached⟩, ?_⟩
  exact (sleep_contract reaches request (by decide) called along reached).2
    [timerTrap] timerTrap rfl rfl rfl

/-- A sleep for less than a tick is not over at the next tick. -/
theorem sleep_contract_broken : ∃ d₁ d₂ d₃, Reaches sampleEnv anyRequest creatorRun d₁ ∧
    d₁.request (syssleep sampleFrame 5) = .sleep 5 ∧
    dispatch sampleEnv d₁ (syssleep sampleFrame 5) = some d₂ ∧
    dispatch sampleEnv d₂ timerTrap = some d₃ ∧ timerTrap.isTick = true ∧
    ¬ Woken d₃ d₁.current := by
  obtain ⟨d₁, reaches, check⟩ := reaches_of_check sampleEnv anyRequest creatorRun
    (fun d₁ => d₁.request (syssleep sampleFrame 5) = .sleep 5 ∧
      ∃ d₂ ∈ dispatch sampleEnv d₁ (syssleep sampleFrame 5), ∃ d₃ ∈ dispatch sampleEnv d₂ timerTrap,
        (d₃.kernel.proctab d₁.current).state ≠ .ready) (by decide +kernel)
  obtain ⟨request, d₂, called, d₃, ticked, asleep⟩ := check
  exact ⟨d₁, d₂, d₃, reaches, request, called, ticked, rfl, fun woken => asleep woken.1⟩

end XerosKernel
