import Mathlib.Algebra.GroupWithZero.Nat
import XerosKernel.CallResults
import XerosKernel.SignalNesting
import XerosKernel.SleepDeltas

/-!
What a process finds when its signal handlers have returned. Beside the run stands what the code
that each handler interrupted is specified to find: its stack pointer, and the result of the call
that the signal arrived in.
-/

namespace XerosKernel

open Execution IntrusiveList

/-! The time that is left to a sleeper. -/

def sleepPath (kernel : Kernel) (p : Slot) : Nat → Option Slot → List Slot
  | 0, _ | _, none => []
  | fuel + 1, some q => if q = p then [q] else q :: sleepPath kernel p fuel (kernel.link q)

def ticksLeft (kernel : Kernel) (p : Slot) : Nat :=
  ((sleepPath kernel p loopFuel kernel.sleepQ).map kernel.diff).sum

def remainingTime (kernel : Kernel) (p : Slot) : Word :=
  BitVec.ofNat 32 (MILLISECONDS_TICK.toNat * ticksLeft kernel p)

/-- `p` is on the sleep queue, the sleepers between it and the head wake together with the head,
and its time fits a word. -/
def Reportable (kernel : Kernel) (p : Slot) : Prop :=
  p ∈ sleepPath kernel p loopFuel kernel.sleepQ ∧
    (∀ q ∈ (sleepPath kernel p loopFuel kernel.sleepQ).tail.dropLast, kernel.diff q = 0) ∧
    MILLISECONDS_TICK.toNat * ticksLeft kernel p < 2 ^ 32

instance (kernel : Kernel) (p : Slot) : Decidable (Reportable kernel p) :=
  inferInstanceAs (Decidable (_ ∧ _))

section Sleepers

variable {kernel : Kernel} {p : Slot}

theorem sleepPath_ends {fuel : Nat} {start : Option Slot}
    (isIn : p ∈ sleepPath kernel p fuel start) :
    ∃ front, sleepPath kernel p fuel start = front ++ [p] := by
  induction fuel generalizing start with
  | zero => simp [sleepPath] at isIn
  | succ fuel ih =>
      cases start with
      | none => simp [sleepPath] at isIn
      | some q =>
          by_cases isP : q = p
          · exact ⟨[], by rw [sleepPath, if_pos isP, isP, List.nil_append]⟩
          · rw [sleepPath, if_neg isP] at isIn ⊢
            have behind := (List.mem_cons.mp isIn).resolve_left fun same => isP same.symm
            obtain ⟨front, ends⟩ := ih behind
            exact ⟨q :: front, by rw [ends, List.cons_append]⟩

theorem killInSleep_remaining (reportable : Reportable kernel p) :
    killInSleep kernel p = some (remainingTime kernel p) := by
  obtain ⟨isIn, zeros, _⟩ := reportable
  unfold remainingTime ticksLeft
  cases head : kernel.sleepQ with
  | none => simp [head, sleepPath] at isIn
  | some first =>
      rw [head] at isIn zeros
      by_cases isFirst : first = p
      · subst isFirst
        have path : sleepPath kernel first loopFuel (some first) = [first] := by
          rw [loopFuel, sleepPath, if_pos rfl]
        rw [path, killInSleep, if_pos head, List.map_singleton, List.sum_singleton]
        refine congrArg some (BitVec.eq_of_toNat_eq ?_)
        rw [BitVec.toNat_mul, BitVec.toNat_ofNat, Nat.mul_comm, Kernel.diff]
      · have path : sleepPath kernel p loopFuel (some first) =
            first :: sleepPath kernel p MAX_PROC (kernel.link first) := by
          rw [loopFuel, sleepPath, if_neg isFirst]
        rw [path] at isIn zeros ⊢
        have behind := (List.mem_cons.mp isIn).resolve_left fun same => isFirst same.symm
        obtain ⟨middle, ends⟩ := sleepPath_ends behind
        rw [ends, List.tail_cons, List.dropLast_concat] at zeros
        have none : (middle.map kernel.diff).sum = 0 := by
          rw [List.sum_eq_zero_iff_forall_eq_nat, List.forall_mem_map]
          exact zeros
        have total : ((first :: (middle ++ [p])).map kernel.diff).sum =
            kernel.diff p + kernel.diff first := by
          rw [List.map_cons, List.map_append, List.sum_cons, List.sum_append, none,
            List.map_singleton, List.sum_singleton]
          omega
        rw [ends, total, killInSleep, head, if_neg (by simpa using isFirst)]
        refine congrArg some (BitVec.eq_of_toNat_eq ?_)
        rw [BitVec.toNat_mul, BitVec.toNat_add, BitVec.toNat_ofNat, Nat.mod_mul_mod, Nat.mul_comm]
        rfl

theorem sleepPath_of_chain {fuel : Nat} {start : Option Slot} {front back : List Slot}
    (chain : Chain kernel.link start (front ++ p :: back)) (absent : p ∉ front)
    (enough : front.length < fuel) : sleepPath kernel p fuel start = front ++ [p] := by
  induction front generalizing start fuel with
  | nil =>
      obtain ⟨fuel, rfl⟩ := Nat.exists_eq_add_one_of_ne_zero (Nat.ne_of_gt enough)
      have isStart : start = some p := chain.1
      rw [isStart, sleepPath, if_pos rfl, List.nil_append]
  | cons q front ih =>
      obtain ⟨fuel, rfl⟩ := Nat.exists_eq_add_one_of_ne_zero
        (Nat.ne_of_gt (Nat.lt_of_le_of_lt (Nat.zero_le _) enough))
      have isStart : start = some q := chain.1
      rw [List.mem_cons, not_or] at absent
      have shorter : front.length < fuel := by
        simp only [List.length_cons] at enough
        omega
      rw [isStart, sleepPath, if_neg (Ne.symm absent.1), ih chain.2 absent.2 shorter,
        List.cons_append]

theorem SleepQueue.ticksLeft {entries : List (Slot × Nat)} {time : Nat}
    (queue : SleepQueue kernel entries) (member : (p, time) ∈ timeLeft entries) :
    ticksLeft kernel p = time := by
  obtain ⟨front, diff, back, rfl, rfl⟩ := DeltaList.deadline_split member
  have chain := queue.chain
  rw [List.map_append, List.map_cons] at chain
  have unique := chain.nodup
  have absent : p ∉ front.map Prod.fst := fun isIn =>
    (List.nodup_append.mp unique).2.2 p isIn p (by simp) rfl
  have enough : (front.map Prod.fst).length < loopFuel :=
    length_lt_loopFuel (List.nodup_append.mp unique).1
  have diffs : (front.map Prod.fst).map kernel.diff = front.map Prod.snd := by
    rw [List.map_map]
    refine List.map_congr_left fun entry isIn => ?_
    exact queue.sleepdiff (List.mem_append_left _ isIn)
  have own : kernel.diff p = diff := queue.sleepdiff (by simp)
  rw [XerosKernel.ticksLeft, sleepPath_of_chain chain absent enough, List.map_append, diffs,
    List.map_singleton, own, List.sum_append, List.sum_singleton, Nat.zero_add]

end Sleepers

/-! What is specified. -/

structure Resumption where
  esp : Word
  ret : Option Word
  deriving DecidableEq, Repr

def Resumption.Met (r : Resumption) (esp ret : Word) : Prop :=
  esp = r.esp ∧ ∀ value ∈ r.ret, ret = value

/-- The result of `p` when the request of another process wakes it. -/
def wakeResult (kernel : Kernel) (d' : Dispatcher) (p : Slot) : Request → Option Word
  | .kill pid signum =>
      if killTarget kernel pid signum ≠ some p then none
      else if (kernel.proctab p).state = .wait then some (-666)
      else if (kernel.proctab p).state = .sleep then some (remainingTime kernel p)
      else none
  | .timer =>
      if (kernel.proctab p).state = .sleep ∧ (d'.kernel.proctab p).state ≠ .sleep then some 0
      else none
  | _ => none

/-- A run with the frames of the handlers of `p`, with what `p` is to find when it goes on, and
with what the code behind each frame is to find. -/
structure Watched extends Handling where
  now : Resumption
  older : List Resumption

namespace Watched

def start (p : Slot) (d : Dispatcher) : Watched where
  d := d
  frames := []
  now := { esp := (d.kernel.proctab p).esp, ret := none }
  older := []

def entered (p : Slot) (w : Watched) (trap : Trap) : Resumption :=
  if w.d.current = p then
    { esp := trap.esp, ret := if trap.trapNo = .kernel then none else some trap.eax }
  else w.now

def given (env : Env) (p : Slot) (w : Watched) (trap : Trap) (d' : Dispatcher) : Option Word :=
  if w.d.current = p then answer env (w.d.entered trap) p (w.d.request trap)
  else wakeResult (w.d.entered trap) d' p (w.d.request trap)

/-- What `p` is to find behind the round if no handler runs first. -/
def answered (env : Env) (p : Slot) (w : Watched) (trap : Trap) (d' : Dispatcher) : Resumption :=
  { w.entered p trap with ret := (w.given env p trap d').or (w.entered p trap).ret }

def after (env : Env) (p : Slot) (w : Watched) (trap : Trap) (d' : Dispatcher) :
    Resumption × List Resumption :=
  match signalCalled (w.d.entered trap) (w.d.request trap), w.d.request trap with
  | some (kernel, target, signum), _ =>
      if target = p ∧ Interrupts kernel p signum then
        ({ esp := (d'.kernel.proctab p).esp, ret := none }, w.answered env p trap d' :: w.older)
      else (w.answered env p trap d', w.older)
  | none, .sigreturn _ _ _ =>
      if w.d.current = p then (w.older.headD (w.answered env p trap d'), w.older.tail)
      else (w.answered env p trap d', w.older)
  | none, .create _ _ =>
      if (w.d.kernel.proctab p).state = .stopped ∧ (d'.kernel.proctab p).state ≠ .stopped then
        ({ esp := (d'.kernel.proctab p).esp, ret := none }, [])
      else (w.answered env p trap d', w.older)
  | none, _ => (w.answered env p trap d', w.older)

def next (env : Env) (p : Slot) (w : Watched) (trap : Trap) (d' : Dispatcher) : Watched where
  d := d'
  frames := w.framesAfter p trap d'
  now := (w.after env p trap d').1
  older := (w.after env p trap d').2

def step (env : Env) (p : Slot) (w : Watched) (trap : Trap) : Option Watched :=
  (dispatch env w.d trap).map fun d' => w.next env p trap d'

end Watched

/-- A signal that `p` sends itself finds the result of `kill` in place already, and one that another
process sends it finds its sleep reportable. -/
def SignalInPlace (p current : Slot) (kernel : Kernel) : Request → Prop
  | .kill pid number => killTarget kernel pid number = some p →
      (current = p → Interrupts kernel p (Fin.ofNat MAX_SIG number.toNat) →
        (kernel.proctab p).ret = 0 ∧ (kernel.proctab p).state ≠ .wait ∧
          (kernel.proctab p).state ≠ .sleep) ∧
      (current ≠ p → (kernel.proctab p).state = .sleep → Reportable kernel p)
  | _ => True

instance (p current : Slot) (kernel : Kernel) :
    (request : Request) → Decidable (SignalInPlace p current kernel request)
  | .kill _ _ => inferInstanceAs (Decidable (_ → _ ∧ _))
  | .create _ _ | .yield | .stop | .cputimes _ | .puts _ | .getpid | .sleep _ | .timer
  | .sighandler _ _ | .sigreturn _ _ _ | .wait _ | .openDevice _ | .close _ | .read _ _ _
  | .write _ _ _ | .ioctl _ _ _ | .keyboard | .bad _ => isTrue trivial

/-- `p` returns only from the handler that runs, and signals find its result in place. -/
def SignalsInPlace (p : Slot) (w : Watched) (trap : Trap) : Prop :=
  (w.d.current = p → ReturnsNewest w.frames (w.d.request trap)) ∧
  SignalInPlace p w.d.current (w.d.entered trap) (w.d.request trap)

instance (p : Slot) (w : Watched) (trap : Trap) : Decidable (SignalsInPlace p w trap) :=
  inferInstanceAs (Decidable (_ ∧ _))

/-- Moreover, the timer finds `p` on the sleep queue only while it sleeps. -/
def Transparent (p : Slot) (w : Watched) (trap : Trap) : Prop :=
  SignalsInPlace p w trap ∧
  (w.d.request trap = .timer → OnSleepQueue (w.d.entered trap) p →
    ((w.d.entered trap).proctab p).state = .sleep ∧ w.d.current ≠ p)

/-- `p` finds what it is to find, and so will the code behind each frame. -/
structure Faithful (p : Slot) (w : Watched) : Prop where
  now : w.now.Met (w.d.kernel.proctab p).esp (w.d.kernel.proctab p).ret
  older : List.Forall₂ (fun frame r => r.Met frame.old_sp frame.old_ret) w.frames w.older

/-! One round. -/

variable {env : Env} {kernel kernel' woken : Kernel} {p target : Slot} {ports : Ports}
  {d' : Dispatcher} {w w' : Watched} {trap : Trap} {signum : Fin MAX_SIG}

def Obtained (given : Option Word) (ret ret' : Word) : Prop :=
  (∀ value ∈ given, ret' = value) ∧ (given = none → ret' = ret)

theorem Obtained.of_getD {given : Option Word} {ret ret' : Word} (same : ret' = given.getD ret) :
    Obtained given ret ret' := by
  cases given with
  | none => exact ⟨nofun, fun _ => same⟩
  | some value => exact ⟨fun _ isValue => same.trans (Option.some.inj isValue), nofun⟩

theorem Resumption.met_none (esp ret : Word) :
    ({ esp := esp, ret := none } : Resumption).Met esp ret :=
  ⟨rfl, fun value isValue => (Option.not_mem_none value isValue).elim⟩

theorem Resumption.Met.or {r : Resumption} {esp ret ret' : Word} {given : Option Word}
    (met : r.Met esp ret) (obtained : Obtained given ret ret') :
    ({ r with ret := given.or r.ret } : Resumption).Met esp ret' := by
  refine ⟨met.1, fun value isValue => ?_⟩
  cases given with
  | none =>
      rw [obtained.2 rfl]
      exact met.2 value isValue
  | some value' =>
      rw [Option.some_or, Option.mem_some_iff] at isValue
      exact isValue ▸ obtained.1 value' rfl

theorem entered_ret (d : Dispatcher) (trap : Trap) (i : Slot) :
    ((d.entered trap).proctab i).ret =
      if i = d.current ∧ trap.trapNo ≠ .kernel then trap.eax else (d.kernel.proctab i).ret := by
  simp only [Dispatcher.entered, contextswitch]
  by_cases isCurrent : i = d.current
  · cases trap.trapNo <;> simp [isCurrent]
  · cases trap.trapNo <;> simp [isCurrent]

theorem entered_met (trap : Trap)
    (met : w.now.Met (w.d.kernel.proctab p).esp (w.d.kernel.proctab p).ret) :
    (w.entered p trap).Met ((w.d.entered trap).proctab p).esp
      ((w.d.entered trap).proctab p).ret := by
  have esp := congrArg Prod.fst (entered_context w.d trap p)
  simp only [Pcb.context] at esp
  rw [esp, entered_ret, Watched.entered]
  by_cases isCurrent : w.d.current = p
  · rw [if_pos isCurrent, if_pos isCurrent.symm]
    refine ⟨rfl, fun v isValue => ?_⟩
    by_cases call : trap.trapNo = .kernel
    · simp [call] at isValue
    · simpa [call, isCurrent] using isValue
  · rw [if_neg isCurrent, if_neg (Ne.symm isCurrent), if_neg fun both => isCurrent both.1.symm]
    exact met

theorem killWake_other {i : Slot} (wakes : killWake kernel target = some woken)
    (other : i ≠ target) : (woken.proctab i).ret = (kernel.proctab i).ret := by
  by_cases waits : (kernel.proctab target).state = .wait
  · rw [killWake_waiting waits] at wakes
    cases wakes
    rw [ready_ret]
    simp [other]
  · by_cases sleeps : (kernel.proctab target).state = .sleep
    · rw [killWake_sleeping sleeps] at wakes
      obtain ⟨left, _, rfl⟩ := Option.map_eq_some_iff.mp wakes
      rw [ready_ret]
      simp [other]
    · rw [killWake_awake waits sleeps] at wakes
      cases wakes
      rfl

theorem wakeResult_missed {pid number : Word} (missed : killTarget kernel pid number ≠ some p) :
    wakeResult kernel d' p (.kill pid number) = none := if_pos missed

theorem wakeResult_reached {pid number : Word} (reached : killTarget kernel pid number = some p) :
    wakeResult kernel d' p (.kill pid number) =
      if (kernel.proctab p).state = .wait then some (-666)
      else if (kernel.proctab p).state = .sleep then some (remainingTime kernel p) else none :=
  if_neg (not_not.mpr reached)

theorem killWake_given {pid number : Word} (reached : killTarget kernel pid number = some target)
    (wakes : killWake kernel target = some woken)
    (reportable : target = p → (kernel.proctab p).state = .sleep → Reportable kernel p) :
    Obtained (wakeResult kernel d' p (.kill pid number)) (kernel.proctab p).ret
      (woken.proctab p).ret := by
  by_cases isTarget : target = p
  · subst isTarget
    rw [wakeResult_reached reached]
    by_cases waits : (kernel.proctab target).state = .wait
    · rw [killWake_waiting waits] at wakes
      cases wakes
      rw [if_pos waits, ready_ret]
      exact .of_getD (by simp)
    · by_cases sleeps : (kernel.proctab target).state = .sleep
      · rw [killWake_sleeping sleeps, killInSleep_remaining (reportable rfl sleeps),
          Option.map_some, Option.some.injEq] at wakes
        rw [if_neg waits, if_pos sleeps, ← wakes, ready_ret]
        exact .of_getD (by simp)
      · rw [killWake_awake waits sleeps] at wakes
        cases wakes
        rw [if_neg waits, if_neg sleeps]
        exact .of_getD rfl
  · have missed : killTarget kernel pid number ≠ some p := by
      rw [reached]
      exact fun same => isTarget (Option.some.inj same)
    rw [wakeResult_missed missed]
    exact .of_getD (killWake_other wakes (Ne.symm isTarget))

theorem signalCalled_woken {pid number : Word}
    (called : signalCalled kernel (.kill pid number) = some (kernel', target, signum)) :
    killTarget kernel pid number = some target ∧ ∃ woken, killWake kernel target = some woken ∧
      ∀ i, (kernel'.proctab i).ret = (woken.proctab i).ret := by
  obtain ⟨found, reached, rest⟩ := Option.bind_eq_some_iff.mp called
  obtain ⟨woken, wakes, rest⟩ := Option.bind_eq_some_iff.mp rest
  split at rest
  · obtain ⟨unlinked, unlinks, result⟩ := Option.map_eq_some_iff.mp rest
    simp only [Prod.mk.injEq] at result
    obtain ⟨rfl, rfl, _⟩ := result
    refine ⟨reached, woken, wakes, fun i => ?_⟩
    rw [wakeWaiters_same (·.ret) fun _ _ _ _ => rfl]
    exact unlinked_same (killUnlink_unlinked unlinks) (·.ret) (fun _ => rfl) i
  · simp only [Option.some.injEq, Prod.mk.injEq] at rest
    obtain ⟨rfl, rfl, _⟩ := rest
    exact ⟨reached, woken, wakes, fun _ => rfl⟩

theorem signal_esp (env : Env) (quiet : ¬ (target = p ∧ Interrupts kernel p signum)) :
    ((signal env kernel target signum).2.proctab p).esp = (kernel.proctab p).esp := by
  by_cases isTarget : target = p
  · subst isTarget
    have same := signal_contexts env (fun delivers => quiet ⟨rfl, delivers⟩) target
    exact congrArg Prod.fst same
  · rw [(signal_touches env kernel target signum).others p (Ne.symm isTarget)]

theorem resume_obtained {current : Slot} {result : Option (Word × Kernel)}
    (served : result.map (resume current) = some d')
    (same : ∀ after ∈ result, (after.2.proctab p).ret = (kernel.proctab p).ret) :
    Obtained (if current = p then result.map Prod.fst else none) (kernel.proctab p).ret
      (d'.kernel.proctab p).ret := by
  obtain ⟨⟨value, kernel'⟩, isResult, rfl⟩ := Option.map_eq_some_iff.mp served
  have answers : ((resume current (value, kernel')).kernel.proctab p).ret =
      if p = current then value else (kernel.proctab p).ret := resume_answers (same _ isResult)
  rw [answers, isResult]
  by_cases isCurrent : current = p
  · rw [if_pos isCurrent, if_pos isCurrent.symm]
    exact .of_getD rfl
  · rw [if_neg isCurrent, if_neg (Ne.symm isCurrent)]
    exact .of_getD rfl

theorem wakeResult_timer : wakeResult kernel d' p .timer =
    if (kernel.proctab p).state = .sleep ∧ (d'.kernel.proctab p).state ≠ .sleep then some 0
    else none := rfl

theorem timer_obtained {current : Slot}
    (asleep : OnSleepQueue kernel p → (kernel.proctab p).state = .sleep ∧ current ≠ p)
    (served : serve env kernel current ports .timer = some d') :
    Obtained (if current = p then none else wakeResult kernel d' p .timer) (kernel.proctab p).ret
      (d'.kernel.proctab p).ret := by
  obtain ⟨ticked, isTicked, popped⟩ := Option.bind_eq_some_iff.mp served
  have counted : ∀ {α : Type} (field : Pcb → α),
      (∀ pcb time, field { pcb with cpuTime := time } = field pcb) →
      field ((ticked.modify current fun pcb => { pcb with cpuTime := pcb.cpuTime + 1 }).proctab p) =
        field (ticked.proctab p) :=
    fun field kept => ticked.modify_same current
      (fun pcb => { pcb with cpuTime := pcb.cpuTime + 1 }) field (kept _ _) p
  have ret : (d'.kernel.proctab p).ret = (ticked.proctab p).ret := by
    rw [reschedule_ret popped, ready_ret]
    exact counted (·.ret) fun _ _ => rfl
  rw [ret]
  rcases tick_outcome isTicked p with ⟨same, state⟩ | ⟨onQueue, zero, isReady⟩
  · rw [same]
    by_cases isCurrent : current = p
    · rw [if_pos isCurrent]
      exact .of_getD rfl
    · have state' : (d'.kernel.proctab p).state = (kernel.proctab p).state := by
        rw [reschedule_state popped, ready_proctab, ← state]
        simp [Ne.symm isCurrent]
      have stays : ¬ ((kernel.proctab p).state = .sleep ∧ (d'.kernel.proctab p).state ≠ .sleep) :=
        fun both => both.2 (state'.trans both.1)
      rw [if_neg isCurrent, wakeResult_timer, if_neg stays]
      exact .of_getD rfl
  · obtain ⟨sleeps, other⟩ := asleep onQueue
    have state' : (d'.kernel.proctab p).state = .ready := by
      rw [reschedule_state popped, ready_proctab]
      simp [Ne.symm other, isReady]
    have wakes : (kernel.proctab p).state = .sleep ∧ (d'.kernel.proctab p).state ≠ .sleep :=
      ⟨sleeps, by simp [state']⟩
    rw [if_neg other, wakeResult_timer, if_pos wakes, zero]
    exact .of_getD rfl

theorem wakeResult_plain {request : Request} (keeps : request.KeepsContexts)
    (notTimer : request ≠ .timer) : wakeResult kernel d' p request = none := by
  cases request with
  | create | kill | sigreturn => exact keeps.elim
  | timer => exact absurd rfl notTimer
  | _ => rfl

theorem plain_obtained {current : Slot} {request : Request} (keeps : request.KeepsContexts)
    (notTimer : request ≠ .timer) (served : serve env kernel current ports request = some d') :
    Obtained (if current = p then answer env kernel p request else wakeResult kernel d' p request)
      (kernel.proctab p).ret (d'.kernel.proctab p).ret := by
  have answers := serve_answers keeps notTimer served p
  by_cases isCurrent : current = p
  · rw [if_pos isCurrent]
    rw [if_pos isCurrent.symm, isCurrent] at answers
    exact .of_getD answers
  · rw [if_neg isCurrent, wakeResult_plain keeps notTimer]
    rw [if_neg (Ne.symm isCurrent)] at answers
    exact .of_getD answers

theorem dropped_obtained {current : Slot} {pid number : Word}
    (quiet : signalCalled kernel (.kill pid number) = none)
    (served : serve env kernel current ports (.kill pid number) = some d') :
    Obtained (if current = p then answer env kernel p (.kill pid number)
      else wakeResult kernel d' p (.kill pid number))
      (kernel.proctab p).ret (d'.kernel.proctab p).ret := by
  obtain ⟨⟨value, kernel'⟩, killed, _⟩ := Option.map_eq_some_iff.mp served
  have missed : killTarget kernel pid number ≠ some p := by
    rw [(uncalled_dropped quiet killed).1]
    exact (Option.some_ne_none p).symm
  rw [wakeResult_missed missed]
  refine resume_obtained served fun after isResult => ?_
  rw [(uncalled_dropped quiet isResult).2]

/-! One round, with a call of `signal`. -/

theorem after_called (env : Env) (p : Slot) (d' : Dispatcher) {call : Kernel × Slot × Fin MAX_SIG}
    (called : signalCalled (w.d.entered trap) (w.d.request trap) = some call) :
    w.after env p trap d' = if call.2.1 = p ∧ Interrupts call.1 p call.2.2 then
      ({ esp := (d'.kernel.proctab p).esp, ret := none }, w.answered env p trap d' :: w.older)
    else (w.answered env p trap d', w.older) := by
  simp only [Watched.after, called]

theorem called_answer {current : Slot} {pid number : Word}
    (called : signalCalled kernel (.kill pid number) = some (kernel', target, signum))
    (served : serve env kernel current ports (.kill pid number) = some d') :
    answer env kernel p (.kill pid number) = some 0 ∧
      d' = resume current (0, (signal env kernel' target signum).2) := by
  obtain ⟨⟨value, after⟩, killed, _⟩ := Option.map_eq_some_iff.mp served
  have zero := (kill_parts (signalCalled_woken called).1 killed).1
  have value : (signal env kernel' target signum).1 = 0 := signal_value env kernel' target signum
  constructor
  · simp only [answer, killed, Option.map_some, zero]
  · rw [serve_called called served, ← value]

theorem called_obtained {pid number : Word}
    (called : signalCalled kernel (.kill pid number) = some (kernel', target, signum))
    (reportable : target = p → (kernel.proctab p).state = .sleep → Reportable kernel p) :
    Obtained (wakeResult kernel d' p (.kill pid number)) (kernel.proctab p).ret
      (kernel'.proctab p).ret := by
  obtain ⟨reached, woken, wakes, ret⟩ := signalCalled_woken called
  rw [ret p]
  exact killWake_given reached wakes reportable

theorem called_awake {pid number : Word}
    (called : signalCalled kernel (.kill pid number) = some (kernel', target, signum))
    (notWaiting : (kernel.proctab target).state ≠ .wait)
    (notSleeping : (kernel.proctab target).state ≠ .sleep) :
    (kernel'.proctab target).ret = (kernel.proctab target).ret := by
  obtain ⟨_, woken, wakes, ret⟩ := signalCalled_woken called
  rw [killWake_awake notWaiting notSleeping] at wakes
  cases wakes
  exact ret target

theorem Faithful.next {now : Resumption} {older : List Resumption} {frames : List SavedFrame}
    (after : w.after env p trap d' = (now, older)) (framesAfter : w.framesAfter p trap d' = frames)
    (met : now.Met (d'.kernel.proctab p).esp (d'.kernel.proctab p).ret)
    (behind : List.Forall₂ (fun frame r => r.Met frame.old_sp frame.old_ret) frames older) :
    Faithful p (w.next env p trap d') where
  now := by
    rw [Watched.next, after]
    exact met
  older := by
    rw [Watched.next, after, framesAfter]
    exact behind

theorem Faithful.keep (faithful : Faithful p w)
    (after : w.after env p trap d' = (w.answered env p trap d', w.older))
    (frames : w.framesAfter p trap d' = w.frames)
    (esp : (d'.kernel.proctab p).esp = ((w.d.entered trap).proctab p).esp)
    (obtained : Obtained (w.given env p trap d') ((w.d.entered trap).proctab p).ret
      (d'.kernel.proctab p).ret) :
    Faithful p (w.next env p trap d') := by
  have met := entered_met trap faithful.now
  rw [← esp] at met
  exact .next after frames (met.or obtained) faithful.older

theorem called_kill {pid number : Word}
    (called : signalCalled kernel (.kill pid number) = some (kernel', target, signum)) :
    killTarget kernel pid number = some target ∧ signum = Fin.ofNat MAX_SIG number.toNat := by
  obtain ⟨found, reached, rest⟩ := Option.bind_eq_some_iff.mp called
  obtain ⟨woken, _, rest⟩ := Option.bind_eq_some_iff.mp rest
  split at rest
  · rename_i fatal
    obtain ⟨unlinked, _, result⟩ := Option.map_eq_some_iff.mp rest
    simp only [Prod.mk.injEq] at result
    obtain ⟨_, rfl, rfl⟩ := result
    exact ⟨reached, by rw [fatal]; rfl⟩
  · simp only [Option.some.injEq, Prod.mk.injEq] at rest
    obtain ⟨_, rfl, rfl⟩ := rest
    exact ⟨reached, rfl⟩

theorem called_interrupts {request : Request}
    (called : signalCalled kernel request = some (kernel', target, signum)) :
    Interrupts kernel' p signum ↔ Interrupts kernel p signum := by
  have personal := (signalCalled_moves called).personal p
  have sigtab := congrArg Pcb.sigtab personal
  have level := congrArg Pcb.currSigLvl personal
  simp only [Pcb.personal] at sigtab level
  rw [Interrupts, Interrupts, sigtab, level]

theorem Faithful.called {pid number : Word} (faithful : Faithful p w)
    (inPlace : SignalsInPlace p w trap) (stepped : w.step env p trap = some w')
    (kills : w.d.request trap = .kill pid number)
    (called : signalCalled (w.d.entered trap) (w.d.request trap) = some (kernel', target, signum)) :
    Faithful p w' := by
  obtain ⟨d', served, rfl⟩ := Option.map_eq_some_iff.mp stepped
  rw [Dispatcher.dispatch_eq] at served
  have frames : w.framesAfter p trap d' = _ := framesAfter_called called
  have after := after_called env p d' called
  have same := SameContexts.moves (signalCalled_moves called) p
  have esp : (kernel'.proctab p).esp = ((w.d.entered trap).proctab p).esp := congrArg Prod.fst same
  rw [kills] at called served
  obtain ⟨reached, number'⟩ := called_kill called
  have arrives (isTarget : target = p) := by
    have inPlace' := inPlace.2
    rw [kills] at inPlace'
    exact inPlace' (isTarget ▸ reached)
  obtain ⟨isAnswer, result⟩ := called_answer (p := p) called served
  have given : w.given env p trap d' = if w.d.current = p then some 0
      else wakeResult (w.d.entered trap) d' p (.kill pid number) := by
    rw [Watched.given, kills, isAnswer]
  by_cases delivered : target = p ∧ Interrupts kernel' p signum
  · have obtained : Obtained (w.given env p trap d') ((w.d.entered trap).proctab p).ret
        (kernel'.proctab p).ret := by
      rw [given]
      obtain ⟨rfl, delivers⟩ := delivered
      by_cases isCurrent : w.d.current = target
      · have interrupts := (called_interrupts called).mp delivers
        rw [number'] at interrupts
        obtain ⟨zero, notWaiting, notSleeping⟩ := (arrives rfl).1 isCurrent interrupts
        rw [if_pos isCurrent, called_awake called notWaiting notSleeping, zero]
        exact .of_getD rfl
      · rw [if_neg isCurrent]
        exact called_obtained called fun isTarget => (arrives isTarget).2 isCurrent
    rw [if_pos delivered] at frames after
    have met := entered_met trap faithful.now
    rw [← esp] at met
    exact .next after frames (Resumption.met_none _ _) (.cons (met.or obtained) faithful.older)
  · have unmoved : (d'.kernel.proctab p).esp = (kernel'.proctab p).esp := by
      have resumed := SameContexts.resume (signal env kernel' target signum).2 w.d.current 0 p
      rw [result, ← signal_esp env delivered]
      exact congrArg Prod.fst resumed
    have obtained : Obtained (w.given env p trap d') ((w.d.entered trap).proctab p).ret
        (d'.kernel.proctab p).ret := by
      rw [given, result, resume_answers (signal_ret env kernel' target p signum)]
      by_cases isCurrent : w.d.current = p
      · rw [if_pos isCurrent, if_pos isCurrent.symm]
        exact .of_getD rfl
      · rw [if_neg isCurrent, if_neg (Ne.symm isCurrent)]
        exact called_obtained called fun isTarget => (arrives isTarget).2 isCurrent
    rw [if_neg delivered] at frames after
    exact faithful.keep after frames (unmoved.trans esp) obtained

/-! One round, without a call of `signal`. -/

theorem after_quiet (env : Env) (p : Slot) (d' : Dispatcher)
    (quiet : signalCalled (w.d.entered trap) (w.d.request trap) = none)
    (notReturn : ∀ old_sp old_ret sigLvl, w.d.request trap ≠ .sigreturn old_sp old_ret sigLvl)
    (notCreate : ∀ fp stack, w.d.request trap ≠ .create fp stack) :
    w.after env p trap d' = (w.answered env p trap d', w.older) ∧
      w.framesAfter p trap d' = w.frames := by
  cases request : w.d.request trap with
  | sigreturn old_sp old_ret sigLvl => exact absurd request (notReturn old_sp old_ret sigLvl)
  | create fp stack => exact absurd request (notCreate fp stack)
  | _ =>
      rw [request] at quiet
      simp only [Watched.after, Handling.framesAfter, quiet, request, and_self]

theorem Faithful.returns {old_sp old_ret sigLvl : Word} (faithful : Faithful p w)
    (newest : w.d.current = p → ReturnsNewest w.frames (w.d.request trap))
    (isReturn : w.d.request trap = .sigreturn old_sp old_ret sigLvl)
    (served : serve env (w.d.entered trap) w.d.current trap.ports (w.d.request trap) = some d') :
    Faithful p (w.next env p trap d') ∧
    (w.d.current = p → ∃ r, w.older = r :: (w.after env p trap d').2 ∧
      (w.after env p trap d').1 = r) := by
  rw [isReturn] at served newest
  have restores := sigreturn_restores served
  by_cases isCurrent : w.d.current = p
  · have after : w.after env p trap d' =
        (w.older.headD (w.answered env p trap d'), w.older.tail) := by
      simp only [Watched.after, isReturn, signalCalled, if_pos isCurrent]
    have frames : w.framesAfter p trap d' = w.frames.tail := by
      simp only [Handling.framesAfter, isReturn, signalCalled, if_pos isCurrent]
    obtain ⟨rest, isNewest⟩ := List.head?_eq_some_iff.mp (newest isCurrent)
    have older := faithful.older
    rw [isNewest] at older
    obtain ⟨r, rest', meets, behind, isOlder⟩ := List.forall₂_cons_left_iff.mp older
    rw [isNewest, List.tail_cons] at frames
    rw [isOlder, List.headD_cons, List.tail_cons] at after
    refine ⟨.next after frames ?_ behind, fun _ => ?_⟩
    · rw [← isCurrent, restores.esp, restores.ret]
      exact meets
    · rw [after]
      exact ⟨r, isOlder, rfl⟩
  · have after : w.after env p trap d' = (w.answered env p trap d', w.older) := by
      simp only [Watched.after, isReturn, signalCalled, if_neg isCurrent]
    have frames : w.framesAfter p trap d' = w.frames := by
      simp only [Handling.framesAfter, isReturn, signalCalled, if_neg isCurrent]
    have same := restores.others p (Ne.symm isCurrent)
    have obtained : Obtained (w.given env p trap d') ((w.d.entered trap).proctab p).ret
        (d'.kernel.proctab p).ret := by
      rw [Watched.given, if_neg isCurrent, isReturn, same]
      exact .of_getD rfl
    exact ⟨faithful.keep after frames (by rw [same]) obtained, fun current => absurd current isCurrent⟩

theorem Faithful.creates {fp stack : Word} (faithful : Faithful p w)
    (isCreate : w.d.request trap = .create fp stack)
    (served : serve env (w.d.entered trap) w.d.current trap.ports (w.d.request trap) = some d') :
    Faithful p (w.next env p trap d') := by
  rw [isCreate] at served
  by_cases fills : (w.d.kernel.proctab p).state = .stopped ∧ (d'.kernel.proctab p).state ≠ .stopped
  · have after : w.after env p trap d' =
        ({ esp := (d'.kernel.proctab p).esp, ret := none }, []) := by
      simp only [Watched.after, isCreate, signalCalled, if_pos fills]
    have frames : w.framesAfter p trap d' = [] := by
      simp only [Handling.framesAfter, isCreate, signalCalled, if_pos fills]
    exact .next after frames (Resumption.met_none _ _) .nil
  · have after : w.after env p trap d' = (w.answered env p trap d', w.older) := by
      simp only [Watched.after, isCreate, signalCalled, if_neg fills]
    have frames : w.framesAfter p trap d' = w.frames := by
      simp only [Handling.framesAfter, isCreate, signalCalled, if_neg fills]
    have obtained : Obtained (w.given env p trap d') ((w.d.entered trap).proctab p).ret
        (d'.kernel.proctab p).ret := by
      rw [Watched.given, isCreate]
      exact resume_obtained served fun created isResult => create_ret isResult p
    refine faithful.keep after frames ?_ obtained
    obtain ⟨⟨value, kernel'⟩, created, rfl⟩ := Option.map_eq_some_iff.mp served
    have resumed := congrArg Prod.fst (SameContexts.resume kernel' w.d.current value p)
    have before : ((w.d.entered trap).proctab p).state = (w.d.kernel.proctab p).state :=
      (contextswitch_private w.d.kernel w.d.current trap).toTouches.same (·.state) (fun _ => rfl) p
    have behind : ((resume w.d.current (value, kernel')).kernel.proctab p).state =
        (kernel'.proctab p).state :=
      (resume_private kernel' w.d.current value).toTouches.same (·.state) (fun _ => rfl) p
    rw [← before, behind] at fills
    exact Eq.trans resumed (create_esp created fills)

theorem Faithful.quiet (faithful : Faithful p w) (transparent : Transparent p w trap)
    (stepped : w.step env p trap = some w')
    (quiet : signalCalled (w.d.entered trap) (w.d.request trap) = none) : Faithful p w' := by
  obtain ⟨d', served, rfl⟩ := Option.map_eq_some_iff.mp stepped
  rw [Dispatcher.dispatch_eq] at served
  cases request : w.d.request trap with
  | sigreturn old_sp old_ret sigLvl =>
      exact (faithful.returns transparent.1.1 request served).1
  | create fp stack => exact faithful.creates request served
  | kill pid number =>
      obtain ⟨after, frames⟩ := after_quiet env p d' quiet (by simp [request])
        (by simp [request])
      rw [request] at served quiet
      have esp := congrArg Prod.fst (kill_uncalled quiet served p)
      refine faithful.keep after frames esp ?_
      rw [Watched.given, request]
      exact dropped_obtained quiet served
  | timer =>
      obtain ⟨after, frames⟩ := after_quiet env p d' quiet (by simp [request])
        (by simp [request])
      rw [request] at served
      have esp := congrArg Prod.fst (serve_contexts (by trivial) served p)
      refine faithful.keep after frames esp ?_
      rw [Watched.given, request]
      exact timer_obtained (transparent.2 request) served
  | _ =>
      obtain ⟨after, frames⟩ := after_quiet env p d' quiet (by simp [request])
        (by simp [request])
      rw [request] at served
      have esp := congrArg Prod.fst (serve_contexts (by trivial) served p)
      refine faithful.keep after frames esp ?_
      rw [Watched.given, request]
      exact plain_obtained (by trivial) (by simp) served

theorem Faithful.step (faithful : Faithful p w) (transparent : Transparent p w trap)
    (stepped : w.step env p trap = some w') : Faithful p w' := by
  cases called : signalCalled (w.d.entered trap) (w.d.request trap) with
  | none => exact faithful.quiet transparent stepped called
  | some call =>
      obtain ⟨kernel', target, signum⟩ := call
      have kills : ∃ pid number, w.d.request trap = .kill pid number := by
        cases request : w.d.request trap with
        | kill pid number => exact ⟨pid, number, rfl⟩
        | _ =>
            rw [request] at called
            cases called
      obtain ⟨pid, number, isKill⟩ := kills
      exact faithful.called transparent.1 stepped isKill called

/-! Runs. -/

/-- In every run that is transparent to `p`, from start-up or any other state, the process finds the
stack pointer and the result that are specified, and each return from a handler leads back to the
code that the handler interrupted, with the result of the call that the signal arrived in. -/
theorem signals_transparent {env : Env} {p : Slot} {traps : List Trap} {start : Dispatcher}
    {w : Watched}
    (transparent : Along (Watched.step env p) (Transparent p) (Watched.start p start) traps)
    (reached : run (Watched.step env p) (Watched.start p start) traps = some w) :
    w.now.Met (w.d.kernel.proctab p).esp (w.d.kernel.proctab p).ret ∧
    ∀ trap w' old_sp old_ret sigLvl, Transparent p w trap → w.d.current = p →
      w.d.request trap = .sigreturn old_sp old_ret sigLvl → w.step env p trap = some w' →
      ∃ r, w.older = r :: w'.older ∧ w'.now = r ∧
        r.Met (w'.d.kernel.proctab p).esp (w'.d.kernel.proctab p).ret := by
  have kept : ∀ (w : Watched) trap (w' : Watched), Faithful p w → Transparent p w trap →
      w.step env p trap = some w' → Faithful p w' :=
    fun w trap w' faithful transparent stepped => faithful.step transparent stepped
  have initial : Faithful p (Watched.start p start) := ⟨Resumption.met_none _ _, .nil⟩
  have faithful := run_invariant kept initial transparent reached
  refine ⟨faithful.now, fun trap w' old_sp old_ret sigLvl transparent isCurrent isReturn stepped =>
    ?_⟩
  obtain ⟨d', served, rfl⟩ := Option.map_eq_some_iff.mp stepped
  obtain ⟨after, returns⟩ := faithful.returns transparent.1.1 isReturn served
  obtain ⟨r, isOlder, isNow⟩ := returns isCurrent
  exact ⟨r, isOlder, isNow, isNow ▸ after.now⟩

def signalledSleep : List Trap :=
  creatorRun ++ ((syssignal sampleFrame 5 0x5100).toList ++
    [syssleep sampleFrame 10, syskill sampleFrame 3 5, sysyield sampleFrame, sysyield sampleFrame])

def handlerFrame : UserFrame := { sampleFrame with esp := 0x70000 }

theorem signals_transparent_sleep : ∃ (start : Dispatcher) (w w' : Watched),
    boot sampleEnv = some start ∧
    run (Watched.step sampleEnv 3) (Watched.start 3 start) signalledSleep = some w ∧
    w.older = [{ esp := 0x80000, ret := some 10 }] ∧
    w.step sampleEnv 3 (syssigreturn handlerFrame 0x80000 10 0) = some w' ∧
    (w'.d.kernel.proctab 3).esp = 0x80000 ∧ (w'.d.kernel.proctab 3).ret = 10 := by
  have check : ∃ start ∈ boot sampleEnv,
      Along (Watched.step sampleEnv 3)
        (fun w trap => SignalsInPlace 3 w trap ∧ w.d.request trap ≠ .timer)
        (Watched.start 3 start) signalledSleep ∧
      ∃ w ∈ run (Watched.step sampleEnv 3) (Watched.start 3 start) signalledSleep,
        w.older = [{ esp := 0x80000, ret := some 10 }] ∧ w.d.current = 3 ∧
        SignalsInPlace 3 w (syssigreturn handlerFrame 0x80000 10 0) ∧
        w.d.request (syssigreturn handlerFrame 0x80000 10 0) = .sigreturn 0x80000 10 0 ∧
        ∃ w' ∈ w.step sampleEnv 3 (syssigreturn handlerFrame 0x80000 10 0), True := by
    decide +kernel
  obtain ⟨start, booted, along, w, reached, older, isCurrent, inPlace, isReturn, rest⟩ := check
  obtain ⟨w', stepped, _⟩ := rest
  have untimed : ∀ (w : Watched) (trap : Trap),
      SignalsInPlace 3 w trap ∧ w.d.request trap ≠ .timer → Transparent 3 w trap :=
    fun w trap inPlace => ⟨inPlace.1, fun isTimer => absurd isTimer inPlace.2⟩
  have transparent := along_imp untimed along
  obtain ⟨r, isOlder, _, met⟩ := (signals_transparent transparent reached).2 _ w' _ _ _
    (untimed w _ ⟨inPlace, by rw [isReturn]; simp⟩) isCurrent isReturn stepped
  rw [older] at isOlder
  obtain ⟨rfl, _⟩ := List.cons.inj isOlder
  exact ⟨start, w, w', booted, reached, older, stepped, met.1, met.2 10 rfl⟩

def signalledSelf : List Trap :=
  creatorRun ++ ((syssignal sampleFrame 5 0x5100).toList ++
    [sysgetpid sampleFrame, syskill sampleFrame 3 5])

/-- When the handler has returned, the call of `syskill` seems to have returned the pid. -/
theorem signals_transparent_broken : ∃ (start : Dispatcher) (w w' : Watched),
    boot sampleEnv = some start ∧
    run (Watched.step sampleEnv 3) (Watched.start 3 start) signalledSelf = some w ∧
    w.frames = [⟨0x80000, 3, 0⟩] ∧ w.older = [{ esp := 0x80000, ret := some 0 }] ∧
    w.d.current = 3 ∧
    w.d.request (syssigreturn handlerFrame 0x80000 3 0) = .sigreturn 0x80000 3 0 ∧
    w.step sampleEnv 3 (syssigreturn handlerFrame 0x80000 3 0) = some w' ∧ w'.older = [] ∧
    (w'.d.kernel.proctab 3).esp = 0x80000 ∧ (w'.d.kernel.proctab 3).ret = 3 := by
  have check : ∃ start ∈ boot sampleEnv,
      ∃ w ∈ run (Watched.step sampleEnv 3) (Watched.start 3 start) signalledSelf,
        w.frames = [⟨0x80000, 3, 0⟩] ∧ w.older = [{ esp := 0x80000, ret := some 0 }] ∧
        w.d.current = 3 ∧
        w.d.request (syssigreturn handlerFrame 0x80000 3 0) = .sigreturn 0x80000 3 0 ∧
        ∃ w' ∈ w.step sampleEnv 3 (syssigreturn handlerFrame 0x80000 3 0), w'.older = [] ∧
          (w'.d.kernel.proctab 3).esp = 0x80000 ∧ (w'.d.kernel.proctab 3).ret = 3 := by
    decide +kernel
  obtain ⟨start, booted, w, reached, frames, older, isCurrent, isReturn, rest⟩ := check
  obtain ⟨w', stepped, none, esp, ret⟩ := rest
  exact ⟨start, w, w', booted, reached, frames, older, isCurrent, isReturn, stepped, none, esp, ret⟩

end XerosKernel
