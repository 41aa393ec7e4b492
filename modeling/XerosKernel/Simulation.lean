import XerosKernel.LocalCalls
import XerosKernel.Schedule

/-!
The kernel carries out the actions of the schedule. `Represents` reads the pointers of a
kernel as a schedule, and every round of `dispatch` in which no signal is sent to a
sleeping process and no read meets the end of the keyboard input is a step of it.
-/

namespace XerosKernel

open IntrusiveList

structure Represents (kernel : Kernel) (s : Schedule) : Prop where
  ready : ReadyQueue kernel s.queue
  sleep : SleepQueue kernel s.sleepers
  table : ∀ i, (kernel.proctab i).entry = s.table i

structure Agrees (kernel : Kernel) (s : Schedule) : Prop where
  state : ∀ i, (kernel.proctab i).state = s.state i
  pid : ∀ i, (kernel.proctab i).pid = (s.table i).pid
  waitpid : ∀ i, (kernel.proctab i).waitpid = (s.table i).waitpid

theorem Agrees.setRet {kernel : Kernel} {s : Schedule} (agrees : Agrees kernel s) (i : Slot)
    (value : Word) : Agrees kernel (s.setRet i value) where
  state := fun j => by rw [Schedule.setRet_state, agrees.state]
  pid := fun j => by rw [agrees.pid, Schedule.setRet_table]; split <;> rfl
  waitpid := fun j => by rw [agrees.waitpid, Schedule.setRet_table]; split <;> rfl

theorem Schedule.Sound.apart {s : Schedule} (sound : s.Sound) {i : Slot} (queued : i ∈ s.queue) :
    i ∉ s.sleepers.map Prod.fst := by
  intro asleep
  have state := (sound.sleeping i).mp asleep
  rw [sound.queued i queued] at state
  cases state

theorem entry_of_unlinked {kernel kernel' : Kernel} (same : kernel'.unlinked = kernel) (i : Slot) :
    (kernel'.proctab i).entry = (kernel.proctab i).entry := by
  rw [← same]
  rfl

/-! The last loop of `kill`, one round after the other. -/

def wakeWaiter (pid : Word) (kernel : Kernel) (i : Slot) : Kernel :=
  if (kernel.proctab i).state = .wait ∧ (kernel.proctab i).waitpid = pid then
    (XerosKernel.ready kernel i).modify i fun pcb => { pcb with waitpid := 0 }
  else kernel

theorem wakeWaiter_pid (pid : Word) (kernel : Kernel) (i j : Slot) :
    ((wakeWaiter pid kernel i).proctab j).pid = (kernel.proctab j).pid := by
  unfold wakeWaiter
  split
  · rw [Kernel.modify_same _ i (fun pcb => { pcb with waitpid := 0 }) (·.pid) rfl j, ready_proctab]
  · rfl

theorem wakeWaiters_eq (kernel : Kernel) (target : Slot) :
    wakeWaiters kernel target =
      (List.finRange MAX_PROC).foldl (wakeWaiter (kernel.proctab target).pid) kernel := by
  unfold wakeWaiters
  generalize List.finRange MAX_PROC = procs
  generalize same : (kernel.proctab target).pid = pid
  induction procs generalizing kernel with
  | nil => rfl
  | cons i rest ih =>
      simp only [List.foldl_cons]
      rw [← ih (wakeWaiter pid kernel i) ((wakeWaiter_pid pid kernel i target).trans same)]
      simp only [wakeWaiter, same]

namespace Represents

variable {kernel kernel' : Kernel} {s : Schedule} {p : Slot}

theorem state (rep : Represents kernel s) (i : Slot) : (kernel.proctab i).state = s.state i := by
  rw [Schedule.state, ← rep.table]
  rfl

theorem pid (rep : Represents kernel s) (i : Slot) :
    (kernel.proctab i).pid = (s.table i).pid := by
  rw [← rep.table]
  rfl

theorem waitpid (rep : Represents kernel s) (i : Slot) :
    (kernel.proctab i).waitpid = (s.table i).waitpid := by
  rw [← rep.table]
  rfl

theorem agrees (rep : Represents kernel s) : Agrees kernel s := ⟨rep.state, rep.pid, rep.waitpid⟩

theorem modify (rep : Represents kernel s) (p : Slot) (write : Pcb → Pcb)
    (write' : Entry → Entry) (next : ∀ pcb, (write pcb).next = pcb.next)
    (diff : ∀ pcb, (write pcb).sleepdiff = pcb.sleepdiff)
    (entry : ∀ pcb, (write pcb).entry = write' pcb.entry) :
    Represents (kernel.modify p write) (s.set p write') where
  ready := rep.ready.congr rfl rfl fun i _ => kernel.modify_same p write (·.next) (next _) i
  sleep := rep.sleep.congr rfl fun i _ => ⟨kernel.modify_same p write (·.next) (next _) i,
    kernel.modify_same p write (·.sleepdiff) (diff _) i⟩
  table := by
    intro i
    rw [Kernel.modify_proctab, Schedule.set_table]
    split
    · rw [entry, rep.table]
    · exact rep.table i

theorem modify_hidden (rep : Represents kernel s) (p : Slot) (write : Pcb → Pcb)
    (next : ∀ pcb, (write pcb).next = pcb.next)
    (diff : ∀ pcb, (write pcb).sleepdiff = pcb.sleepdiff)
    (entry : ∀ pcb, (write pcb).entry = pcb.entry) : Represents (kernel.modify p write) s where
  ready := rep.ready.congr rfl rfl fun i _ => kernel.modify_same p write (·.next) (next _) i
  sleep := rep.sleep.congr rfl fun i _ => ⟨kernel.modify_same p write (·.next) (next _) i,
    kernel.modify_same p write (·.sleepdiff) (diff _) i⟩
  table := fun i => (kernel.modify_same p write Pcb.entry (entry _) i).trans (rep.table i)

theorem touches (rep : Represents kernel s) (touched : Touches p kernel kernel') :
    Represents kernel' (s.setRet p (kernel'.proctab p).ret) where
  ready := rep.ready.congr touched.head touched.tail fun i _ =>
    touched.same (·.next) (fun _ => rfl) i
  sleep := rep.sleep.congr touched.sleepQ fun i _ =>
    ⟨touched.same (·.next) (fun _ => rfl) i, touched.same (·.sleepdiff) (fun _ => rfl) i⟩
  table := by
    intro i
    rw [Schedule.setRet_table]
    have entry := touched.same (fun pcb => { pcb.entry with ret := 0 }) (fun _ => rfl) i
    rw [← rep.table]
    by_cases isP : i = p
    · subst isP
      rw [if_pos rfl]
      exact congrArg (fun entry : Entry => { entry with ret := (kernel'.proctab i).ret }) entry
    · rw [if_neg isP, touched.others i isP]

theorem enqueue (rep : Represents kernel s) (sound : s.Sound) (absent : p ∉ s.queue)
    (awake : s.state p ≠ .sleep) : Represents (XerosKernel.ready kernel p) (s.enqueue p) where
  ready := rep.ready.append absent
  sleep := by
    refine rep.sleep.congr (ready_sleepQ kernel p) ?_
    intro i asleep
    have other : i ≠ p := fun equal => awake ((sound.sleeping p).mp (equal ▸ asleep))
    have notLast : kernel.tail ≠ some i := by
      rw [rep.ready.last]
      exact fun last => sound.apart (List.mem_of_getLast? last) asleep
    exact ⟨by rw [ready_link, if_neg notLast, if_neg other], by rw [ready_proctab]⟩
  table := by
    intro i
    rw [ready_proctab, Schedule.enqueue_table, ← rep.table]
    by_cases isP : i = p <;> simp [Pcb.entry, isP]

theorem pop (rep : Represents kernel s) (sound : s.Sound) {d : Dispatcher}
    (popped : reschedule kernel = some d) :
    ∃ s', s.pop = some (s', d.current) ∧ Represents d.kernel s' := by
  cases queue : s.queue with
  | nil =>
      have hangs : next kernel = none := by
        have ready := rep.ready
        rw [queue] at ready
        exact ready.next_nil
      simp [reschedule, hangs] at popped
  | cons first rest =>
      have ready := rep.ready
      rw [queue] at ready
      obtain ⟨taken, ready'⟩ := ready.next_cons
      rw [reschedule, taken, Option.map_some, Option.some.injEq] at popped
      subst popped
      refine ⟨{ s with queue := rest }, by simp [Schedule.pop, queue], ready', ?_, ?_⟩
      · refine rep.sleep.congr rfl ?_
        intro i asleep
        have other : i ≠ first := by
          rintro rfl
          exact sound.apart (by simp [queue]) asleep
        simp [popped, Kernel.link, other]
      · intro i
        exact (entry_of_unlinked (popped_unlinked kernel first) i).trans (rep.table i)

theorem tick (rep : Represents kernel s) (sound : s.Sound) :
    ∃ kernel', XerosKernel.tick kernel = some kernel' ∧ Represents kernel' s.tick := by
  obtain ⟨kernel', ticked, ready, sleep, rest⟩ :=
    tick_spec rep.ready rep.sleep fun i queued => sound.apart queued
  refine ⟨kernel', ticked, ready, sleep, ?_⟩
  intro i
  rw [entry_of_unlinked rest i]
  change Pcb.entry (if i ∈ (tickEntries s.sleepers).1 then _ else _) =
    if i ∈ (tickEntries s.sleepers).1 then _ else _
  rw [← rep.table]
  split <;> rfl

theorem fallAsleep (rep : Represents kernel s) (sound : s.Sound) (absent : p ∉ s.queue)
    (awake : s.state p ≠ .sleep) {len : Word} (positive : ¬ len < 1) :
    ∃ kernel', XerosKernel.sleep kernel p len = some kernel' ∧
      Represents kernel' { s.setState p .sleep with
        sleepers := DeltaList.insert (len / MILLISECONDS_TICK).toNat p s.sleepers } := by
  obtain ⟨kernel', slept, sleep, rest, head, tail, link⟩ :=
    rep.sleep.insert positive fun asleep => awake ((sound.sleeping p).mp asleep)
  refine ⟨kernel', slept, ?_, sleep, ?_⟩
  · refine rep.ready.congr head tail ?_
    intro i queued
    have other : i ≠ p := fun equal => absent (equal ▸ queued)
    refine link i ?_
    rw [List.mem_cons, not_or]
    exact ⟨other, sound.apart queued⟩
  · intro i
    rw [entry_of_unlinked rest i]
    change Pcb.entry (if i = p then _ else _) = if i = p then _ else _
    rw [← rep.table]
    split <;> rfl

theorem remove (rep : Represents kernel s) (sound : s.Sound)
    (isReady : s.state p = .ready) :
    ∃ kernel', removeFromReady kernel p = some kernel' ∧ Represents kernel' (s.remove p) := by
  obtain ⟨kernel', removed, ready, rest, sleepQ, diff, link⟩ := rep.ready.remove (p := p)
  refine ⟨kernel', removed, ?_⟩
  rw [Schedule.remove, if_pos isReady]
  refine ⟨ready, rep.sleep.congr sleepQ ?_, ?_⟩
  · intro i asleep
    exact ⟨link i fun queued => sound.apart queued asleep, diff i⟩
  · intro i
    exact (entry_of_unlinked rest i).trans (rep.table i)

theorem wakeWaiter (rep : Represents kernel s) (sound : s.Sound) {i : Slot}
    (waits : s.state i = .wait) :
    Represents (wakeWaiter (s.table i).waitpid kernel i) (s.endWait [i]) := by
  have absent : i ∉ s.queue := by
    intro queued
    rw [sound.queued i queued] at waits
    cases waits
  have readied := rep.enqueue sound absent (by simp [waits])
  have woken := readied.modify i (fun pcb => { pcb with waitpid := 0 })
    (fun entry => { entry with waitpid := 0 }) (fun _ => rfl) (fun _ => rfl) (fun _ => rfl)
  have same : (s.enqueue i).set i (fun entry => { entry with waitpid := 0 }) = s.endWait [i] := by
    simp only [Schedule.endWait, Schedule.set, Schedule.enqueue, Schedule.setState,
      Schedule.mk.injEq, true_and]
    funext j
    by_cases isI : j = i <;> simp [isI]
  rw [same] at woken
  rwa [XerosKernel.wakeWaiter, if_pos ⟨(rep.state i).trans waits, rep.waitpid i⟩]

theorem wakeWaiters_foldl (rep : Represents kernel s) (sound : s.Sound) (pid : Word)
    {procs : List Slot} (unique : procs.Nodup) :
    Represents (procs.foldl (XerosKernel.wakeWaiter pid) kernel)
      (s.endWait (procs.filter fun i => s.state i = .wait ∧ (s.table i).waitpid = pid)) := by
  induction procs generalizing kernel s with
  | nil => simpa [Schedule.endWait_nil] using rep
  | cons i rest ih =>
      have unique' := List.nodup_cons.mp unique
      rw [List.foldl_cons]
      by_cases waits : s.state i = .wait ∧ (s.table i).waitpid = pid
      · have woken := rep.wakeWaiter sound waits.1
        rw [waits.2] at woken
        have sound' : (s.endWait [i]).Sound :=
          sound.endWait (List.nodup_singleton i) (by simpa using waits.1)
        have others : ∀ j ∈ rest, (s.endWait [i]).table j = s.table j := by
          intro j member
          have other : j ≠ i := fun equal => unique'.1 (equal ▸ member)
          simp [Schedule.endWait, other]
        have same : (rest.filter fun j => (s.endWait [i]).state j = .wait ∧
            ((s.endWait [i]).table j).waitpid = pid) =
            rest.filter fun j => s.state j = .wait ∧ (s.table j).waitpid = pid := by
          apply List.filter_congr
          intro j member
          rw [decide_eq_decide, Schedule.state, Schedule.state, others j member]
        have looped := ih woken sound' unique'.2
        rw [same, Schedule.endWait_cons] at looped
        simpa [waits] using looped
      · have untouched : XerosKernel.wakeWaiter pid kernel i = kernel := by
          rw [XerosKernel.wakeWaiter, if_neg]
          rw [rep.state, rep.waitpid]
          exact waits
        rw [untouched]
        simpa [waits] using ih rep sound unique'.2

theorem release (rep : Represents kernel s) (sound : s.Sound) (target : Slot) :
    Represents (wakeWaiters kernel target) (s.release target) := by
  rw [wakeWaiters_eq, rep.pid]
  exact rep.wakeWaiters_foldl sound _ (List.nodup_finRange MAX_PROC)

theorem outside (rep : Represents kernel s) (same : Outside kernel kernel') :
    Represents kernel' s where
  ready := rep.ready.congr same.head same.tail fun i _ => by rw [Kernel.link, same.table]; rfl
  sleep := rep.sleep.congr same.sleepQ fun i _ =>
    ⟨by rw [Kernel.link, same.table]; rfl, by rw [same.table]⟩
  table := by
    intro i
    rw [same.table]
    exact rep.table i

end Represents

/-! Requests as actions. -/

/-- What a request of `p` means to the scheduler. -/
inductive Performs (env : Env) (kernel : Kernel) (p : Slot) : Request → Action → Prop
  | create {fp stack pid : Word} {i : Slot} (creates : Creates kernel stack pid i) :
      Performs env kernel p (.create fp stack) (.create i pid)
  | noSlot {fp stack : Word} (fails : ∀ pid i, ¬ Creates kernel stack pid i) :
      Performs env kernel p (.create fp stack) .stay
  | yield : Performs env kernel p .yield .yield
  | stop : Performs env kernel p .stop .stop
  | kill {pid signum : Word} {target : Slot}
      (reached : killTarget kernel pid signum = some target) :
      Performs env kernel p (.kill pid signum) (.kill target (signum = 31))
  | dropped {pid signum : Word} (dropped : killTarget kernel pid signum = none) :
      Performs env kernel p (.kill pid signum) .stay
  | noSleep {len : Word} (zero : len < 1) : Performs env kernel p (.sleep len) .yield
  | sleep {len : Word} (positive : ¬ len < 1) :
      Performs env kernel p (.sleep len) (.sleep (len / MILLISECONDS_TICK).toNat)
  | timer : Performs env kernel p .timer .timer
  | wait {pid : Word} {target : Slot} (found : findPCB kernel pid = some target)
      (nonzero : pid ≠ 0) : Performs env kernel p (.wait pid) (.wait pid)
  | noWait {pid : Word} (nobody : pid = 0 ∨ findPCB kernel pid = none) :
      Performs env kernel p (.wait pid) .stay
  | read {fd buff bufflen : Word}
      (goesOn : ¬ (ReadsKbd env kernel p fd buff ∧ BlocksReader kernel.kbd))
      (long : ¬ ReadsMinusThree env kernel p fd buff bufflen) :
      Performs env kernel p (.read fd buff bufflen) .stay
  | block {fd buff bufflen : Word}
      (blocks : ReadsKbd env kernel p fd buff ∧ BlocksReader kernel.kbd) :
      Performs env kernel p (.read fd buff bufflen) .block
  | drop {fd buff bufflen : Word} (short : ReadsMinusThree env kernel p fd buff bufflen) :
      Performs env kernel p (.read fd buff bufflen) .drop
  | stay {request : Request} (isLocal : request.IsLocal) : Performs env kernel p request .stay

/-- The state and the request determine the action. -/
theorem Performs.unique {env : Env} {kernel : Kernel} {p : Slot} {request : Request}
    {action action' : Action} (first : Performs env kernel p request action)
    (second : Performs env kernel p request action') : action = action' := by
  cases first with
  | create creates =>
      cases second with
      | create creates' =>
          obtain ⟨rfl, rfl⟩ := creates.unique creates'
          rfl
      | noSlot fails => exact absurd creates (fails _ _)
      | stay isLocal => exact isLocal.elim
  | noSlot fails =>
      cases second with
      | create creates => exact absurd creates (fails _ _)
      | noSlot _ => rfl
      | stay _ => rfl
  | yield =>
      cases second with
      | yield => rfl
      | stay isLocal => exact isLocal.elim
  | stop =>
      cases second with
      | stop => rfl
      | stay isLocal => exact isLocal.elim
  | kill reached =>
      cases second with
      | kill reached' =>
          rw [reached, Option.some.injEq] at reached'
          rw [reached']
      | dropped dropped =>
          rw [dropped] at reached
          cases reached
      | stay isLocal => exact isLocal.elim
  | dropped dropped =>
      cases second with
      | kill reached =>
          rw [dropped] at reached
          cases reached
      | dropped _ => rfl
      | stay _ => rfl
  | noSleep zero =>
      cases second with
      | noSleep _ => rfl
      | sleep positive => exact absurd zero positive
      | stay isLocal => exact isLocal.elim
  | sleep positive =>
      cases second with
      | noSleep zero => exact absurd zero positive
      | sleep _ => rfl
      | stay isLocal => exact isLocal.elim
  | timer =>
      cases second with
      | timer => rfl
      | stay isLocal => exact isLocal.elim
  | wait found nonzero =>
      cases second with
      | wait _ _ => rfl
      | noWait nobody =>
          rcases nobody with zero | absent
          · exact absurd zero nonzero
          · rw [absent] at found
            cases found
      | stay isLocal => exact isLocal.elim
  | noWait nobody =>
      cases second with
      | wait found nonzero =>
          rcases nobody with zero | absent
          · exact absurd zero nonzero
          · rw [absent] at found
            cases found
      | noWait _ => rfl
      | stay _ => rfl
  | read goesOn long =>
      cases second with
      | read _ _ => rfl
      | block blocks => exact absurd blocks goesOn
      | drop short => exact absurd short long
      | stay _ => rfl
  | block blocks =>
      cases second with
      | read goesOn _ => exact absurd blocks goesOn
      | block _ => rfl
      | drop short => exact absurd (blocks.1.2.2.symm.trans short.2.2.1) (by simp)
      | stay isLocal => exact isLocal.elim
  | drop short =>
      cases second with
      | read _ long => exact absurd short long
      | block blocks => exact absurd (blocks.1.2.2.symm.trans short.2.2.1) (by simp)
      | drop _ => rfl
      | stay isLocal => exact isLocal.elim
  | stay isLocal =>
      cases second with
      | noSlot _ | dropped _ | noWait _ | read _ _ | stay _ => rfl
      | _ => exact isLocal.elim

/-- No signal is sent to a sleeping process, and no read meets the end of the input. -/
def Orderly (env : Env) (kernel : Kernel) (p : Slot) : Request → Prop
  | .kill pid signum => ∀ target ∈ killTarget kernel pid signum,
      (kernel.proctab target).state ≠ .sleep
  | .read fd buff _ => ¬ ReadsEof env kernel p fd buff
  | _ => True

section Serve

variable {env : Env} {kernel kernel' : Kernel} {s : Schedule} {p : Slot} {d : Dispatcher}

theorem Performs.allows {request : Request} {action : Action}
    (performs : Performs env kernel p request action) (agrees : Agrees kernel s)
    (orderly : Orderly env kernel p request) : s.Allows action := by
  cases performs with
  | create creates => exact (agrees.state _).symm.trans (createSearch_found creates.1).1
  | kill reached =>
      rw [Schedule.Allows, ← agrees.state]
      exact orderly _ reached
  | _ => trivial

theorem killWake_simulates (rep : Represents kernel s) (sound : s.Sound) {target : Slot}
    (awake : s.state target ≠ .sleep) :
    ∃ kernel', killWake kernel target = some kernel' ∧
      Represents kernel' (s.interrupt target) := by
  unfold killWake Schedule.interrupt
  by_cases waits : s.state target = .wait
  · have absent : target ∉ s.queue := by
      intro queued
      rw [sound.queued target queued] at waits
      cases waits
    have answered : Represents (kernel.modify target fun pcb => { pcb with ret := -666 })
        (s.setRet target (-666)) :=
      rep.modify target _ _ (fun _ => rfl) (fun _ => rfl) (fun _ => rfl)
    have woken := answered.enqueue (sound.setRet (-666)) absent (by simpa using awake)
    refine ⟨_, ?_, by simpa only [if_pos waits] using woken⟩
    simp [rep.state, waits]
  · exact ⟨kernel, by simp [rep.state, waits, awake], by simpa only [if_neg waits] using rep⟩

theorem killUnlink_simulates (rep : Represents kernel s) (sound : s.Sound) {target : Slot}
    (awake : s.state target ≠ .sleep) :
    ∃ kernel', killUnlink kernel target = some kernel' ∧
      Represents kernel' (s.remove target) := by
  unfold killUnlink
  rw [rep.state]
  by_cases isReady : s.state target = .ready
  · obtain ⟨kernel', removed, rep'⟩ := rep.remove sound isReady
    exact ⟨kernel', by rw [isReady]; exact removed, rep'⟩
  · refine ⟨kernel, ?_, by rwa [Schedule.remove, if_neg isReady]⟩
    cases state : s.state target with
    | ready => exact absurd state isReady
    | sleep => exact absurd state awake
    | _ => rfl

theorem signal_simulates (rep : Represents kernel s) (target : Slot) (signum : Fin MAX_SIG) :
    Represents (signal env kernel target signum).2 s := by
  have touched := rep.touches (signal_touches env kernel target signum)
  have same : s.setRet target ((signal env kernel target signum).2.proctab target).ret = s := by
    have ret : (kernel.proctab target).ret = (s.table target).ret := by
      rw [← rep.table]
      rfl
    rw [signal_ret, ret, Schedule.setRet_self]
  rwa [same] at touched

theorem kill_simulates (rep : Represents kernel s) (sound : s.Sound) {pid signum : Word}
    {target : Slot} (reached : killTarget kernel pid signum = some target)
    (awake : s.state target ≠ .sleep) :
    ∃ value kernel', kill env kernel pid signum = some (value, kernel') ∧
      ∀ p, ∃ s', s.after p (.kill target (signum = 31)) = some (s', p) ∧
        Represents kernel' s' := by
  obtain ⟨woken, wakes, rep₁⟩ := killWake_simulates rep sound awake
  rw [kill_reached env reached, wakes, Option.bind_some]
  by_cases fatal : signum = 31
  · have sound₁ : (s.interrupt target).Sound := sound.interrupt
    have awake₁ : (s.interrupt target).state target ≠ .sleep := by
      unfold Schedule.interrupt
      split
      · simp
      · exact awake
    obtain ⟨unlinked, unlinks, rep₂⟩ := killUnlink_simulates rep₁ sound₁ awake₁
    have rep₃ := rep₂.release sound₁.remove target
    refine ⟨_, _, by rw [if_pos fatal, unlinks, Option.map_some], fun p => ⟨_, ?_,
      signal_simulates rep₃ target 31⟩⟩
    simp only [Schedule.after, decide_eq_true fatal, if_true]
  · refine ⟨_, _, if_neg fatal, fun p => ⟨_, ?_, signal_simulates rep₁ target _⟩⟩
    simp only [Schedule.after, decide_eq_false fatal, Bool.false_eq_true, if_false]

theorem create_simulates (rep : Represents kernel s) (sound : s.Sound) {base : Kernel} {i : Slot}
    (esp pid : Word) (outside : Outside kernel base)
    (free : (kernel.proctab i).state = .stopped) :
    Represents (ready (base.modify i fun pcb =>
      { pcb with esp := esp, state := .ready, pid := pid }) i)
      ((s.set i fun entry => { entry with pid := pid }).enqueue i) := by
  have stopped : s.state i = .stopped := (rep.state i).symm.trans free
  have absent : i ∉ s.queue := by
    intro queued
    rw [sound.queued i queued] at stopped
    cases stopped
  have named : Represents (base.modify i fun pcb =>
      { pcb with esp := esp, state := .ready, pid := pid })
      (s.set i fun entry => { entry with state := .ready, pid := pid }) :=
    (rep.outside outside).modify i _ _ (fun _ => rfl) (fun _ => rfl) (fun _ => rfl)
  have sound' : (s.set i fun entry => { entry with state := .ready, pid := pid }).Sound := by
    have readied : (s.setState i .ready).Sound :=
      sound.setState absent (by simp [stopped]) (by simp)
    refine readied.congr rfl rfl ?_
    intro j
    by_cases isI : j = i <;> simp [Schedule.state, Schedule.setState, isI]
  have same : (s.set i fun entry => { entry with state := .ready, pid := pid }).enqueue i =
      (s.set i fun entry => { entry with pid := pid }).enqueue i := by
    simp only [Schedule.enqueue, Schedule.setState, Schedule.set]
    congr 1
    funext j
    by_cases isI : j = i <;> simp [isI]
  rw [← same]
  exact named.enqueue sound' absent (by simp [Schedule.state])

def Simulates (env : Env) (kernel : Kernel) (s : Schedule) (p : Slot) (request : Request)
    (d : Dispatcher) : Prop :=
  ∃ action s', Performs env kernel p request action ∧ s.Step p action s' d.current ∧
    Represents d.kernel s'

theorem simulates_stay (rep : Represents kernel s) {request : Request}
    (performs : Performs env kernel p request .stay) (current : d.current = p)
    (stays : Private p kernel d.kernel) : Simulates env kernel s p request d :=
  ⟨.stay, _, performs, .of_after (by rw [current]; rfl) _, rep.touches stays.toTouches⟩

theorem simulates_resume (rep : Represents kernel s) {request : Request}
    (performs : Performs env kernel p request .stay) {value : Word}
    (stays : Private p kernel kernel') :
    Simulates env kernel s p request (resume p (value, kernel')) :=
  simulates_stay rep performs rfl (stays.trans (resume_private kernel' p value))

theorem simulates_pop {s' : Schedule} (rep : Represents kernel' s') (sound : s'.Sound)
    {request : Request} {action : Action} (performs : Performs env kernel p request action)
    (after : s.after p action = s'.pop) (popped : reschedule kernel' = some d) :
    Simulates env kernel s p request d := by
  obtain ⟨middle, next, rep'⟩ := rep.pop sound popped
  exact ⟨action, middle, performs, .of_pop (after.trans next), rep'⟩

theorem Simulates.of_setRet {request : Request} {value : Word}
    (simulates : Simulates env kernel (s.setRet p value) p request d) :
    Simulates env kernel s p request d := by
  obtain ⟨action, s', performs, step, rep⟩ := simulates
  exact ⟨action, s', performs, step.of_setRet, rep⟩

/-- Every orderly request is an action of the schedule. -/
theorem serve_simulates (rep : Represents kernel s) (live : s.Live p) {ports : Ports}
    {request : Request} (orderly : Orderly env kernel p request)
    (served : serve env kernel p ports request = some d) :
    Simulates env kernel s p request d := by
  have sound := live.toSound
  have awake : s.state p ≠ .sleep := by simp [live.running]
  cases request with
  | create fp stack =>
      obtain ⟨⟨value, kernel'⟩, created, rfl⟩ := Option.map_eq_some_iff.mp served
      rcases create_creates created with ⟨outside, fails⟩ | ⟨i, base, esp, pid, creates, outside, rfl⟩
      · exact simulates_resume rep (.noSlot fails) (Private.outside outside)
      · have rep' := create_simulates rep sound esp pid outside (createSearch_found creates.1).1
        exact ⟨_, _, .create creates, .of_after rfl _,
          rep'.touches (resume_private _ p value).toTouches⟩
  | yield =>
      exact simulates_pop (rep.enqueue sound live.absent awake)
        (sound.enqueue live.absent awake) .yield rfl served
  | stop =>
      have stopped : Represents (kernel.modify p fun pcb => { pcb with state := .stopped })
          (s.setState p .stopped) :=
        rep.modify p _ _ (fun _ => rfl) (fun _ => rfl) (fun _ => rfl)
      exact simulates_pop stopped (sound.setState live.absent awake (by simp)) .stop rfl served
  | kill pid signum =>
      cases reached : killTarget kernel pid signum with
      | none =>
          obtain ⟨value, dropped⟩ := kill_dropped env reached
          rw [serve, dropped, Option.map_some, Option.some.injEq] at served
          subst served
          exact simulates_resume rep (.dropped reached) Private.refl
      | some target =>
          have awake' : s.state target ≠ .sleep := by
            rw [← rep.state]
            exact orderly target reached
          obtain ⟨value, kernel', killed, simulated⟩ := kill_simulates rep sound reached awake'
          obtain ⟨s', after, rep'⟩ := simulated p
          rw [serve, killed, Option.map_some, Option.some.injEq] at served
          subst served
          exact ⟨_, _, .kill reached, .of_after after _,
            rep'.touches (resume_private kernel' p value).toTouches⟩
  | sleep len =>
      obtain ⟨kernel', slept, popped⟩ := Option.bind_eq_some_iff.mp served
      by_cases zero : len < 1
      · rw [sleep, if_pos zero, Option.some.injEq] at slept
        subst slept
        exact simulates_pop (rep.enqueue sound live.absent awake)
          (sound.enqueue live.absent awake) (.noSleep zero) rfl popped
      · obtain ⟨asleep, slept', rep'⟩ := rep.fallAsleep sound live.absent awake zero
        rw [slept', Option.some.injEq] at slept
        subst slept
        exact simulates_pop rep' (sound.sleep live.absent awake _) (.sleep zero) rfl popped
  | timer =>
      obtain ⟨kernel', ticked, popped⟩ := Option.bind_eq_some_iff.mp served
      obtain ⟨awakened, ticked', rep'⟩ := rep.tick sound
      rw [ticked', Option.some.injEq] at ticked
      subst ticked
      have tick := live.tick
      have counted := rep'.modify_hidden p (fun pcb => { pcb with cpuTime := pcb.cpuTime + 1 })
        (fun _ => rfl) (fun _ => rfl) (fun _ => rfl)
      have awake' : s.tick.state p ≠ .sleep := by simp [tick.running]
      exact simulates_pop (counted.enqueue tick.toSound tick.absent awake')
        (tick.toSound.enqueue tick.absent awake') .timer rfl popped
  | wait pid =>
      rcases serve_wait served with ⟨nobody, rfl⟩ | ⟨⟨target, found⟩, nonzero, popped⟩
      · exact simulates_resume rep (.noWait nobody) Private.refl
      · have waits : Represents (kernel.modify p fun pcb =>
            { pcb with state := .wait, waitpid := pid, ret := 0 })
            (s.set p fun entry => { entry with state := .wait, waitpid := pid, ret := 0 }) :=
          rep.modify p _ _ (fun _ => rfl) (fun _ => rfl) (fun _ => rfl)
        exact simulates_pop waits (sound.wait live.absent awake pid) (.wait found nonzero) rfl
          popped
  | read fd buff bufflen =>
      obtain ⟨⟨value, kernel'⟩, read, rest⟩ := Option.bind_eq_some_iff.mp served
      rcases diRead_outcome read with ⟨stays, running, goesOn, long⟩ | ⟨eof, _⟩ |
        ⟨blocks, rfl, middle, stays, rfl⟩ | ⟨short, rfl, stays⟩
      · simp only [if_neg running, Option.some.injEq] at rest
        subst rest
        exact simulates_resume rep (.read goesOn long) stays
      · exact absurd eof orderly
      · have read' := rep.touches stays.toTouches
        have live' := live.setRet p (middle.proctab p).ret
        have blocked : Represents (middle.modify p fun pcb => { pcb with state := .blocked })
            ((s.setRet p (middle.proctab p).ret).setState p .blocked) :=
          read'.modify p _ _ (fun _ => rfl) (fun _ => rfl) (fun _ => rfl)
        have sound' := live'.toSound.setState (p := p) live'.absent (by simp [live'.running])
          (show ProcState.blocked ≠ .sleep by simp)
        exact (simulates_pop blocked sound' (.block blocks) rfl rest).of_setRet
      · have read' := rep.touches stays.toTouches
        have live' := live.setRet p (kernel'.proctab p).ret
        exact (simulates_pop read' live'.toSound (.drop short) rfl rest).of_setRet
  | _ =>
      obtain ⟨current, stays⟩ := serve_local (by trivial) served
      exact simulates_stay rep (.stay (by trivial)) current stays

end Serve

/-! Rounds of the dispatcher. -/

namespace Dispatcher

def entered (d : Dispatcher) (trap : Trap) : Kernel := (contextswitch d.kernel d.current trap).1

def request (d : Dispatcher) (trap : Trap) : Request :=
  decode (d.entered trap) d.current (contextswitch d.kernel d.current trap).2

theorem dispatch_eq (env : Env) (d : Dispatcher) (trap : Trap) : dispatch env d trap =
    serve env (d.entered trap) d.current trap.ports (d.request trap) := rfl

end Dispatcher

/-! Start-up. -/

namespace Schedule

def empty : Schedule := { queue := [], sleepers := [], table := fun _ => Pcb.entry {} }

/-- The schedules that `boot` can build before a process runs. -/
inductive Built : Schedule → Prop
  | empty : Built empty
  | create {s : Schedule} {i : Slot} {pid : Word} (built : Built s) (free : s.state i = .stopped)
      (slot : i = slotOf pid) :
      Built ((s.set i fun entry => { entry with pid := pid }).enqueue i)

theorem Built.sleepers {s : Schedule} (built : Built s) : s.sleepers = [] := by
  induction built with
  | empty => rfl
  | create built free slot asleep => exact asleep

theorem Built.state {s : Schedule} (built : Built s) (i : Slot) :
    s.state i = .stopped ∨ s.state i = .ready := by
  induction built with
  | empty => exact Or.inl rfl
  | create built free slot ih =>
      rename_i s j pid
      rw [enqueue_state]
      by_cases same : i = j
      · exact Or.inr (if_pos same)
      · simpa [Schedule.state, same] using ih

theorem Built.sound {s : Schedule} (built : Built s) : s.Sound := by
  induction built with
  | empty =>
      refine ⟨by simp [Schedule.empty], List.nodup_nil, ?_, List.nodup_nil⟩
      intro i
      simp [Schedule.empty, Schedule.state, Pcb.entry]
  | create built free slot sound =>
      rename_i s i pid
      have renamed : (s.set i fun entry => { entry with pid := pid }).Sound :=
        sound.congr rfl rfl fun j => by by_cases same : j = i <;> simp [Schedule.state, same]
      refine renamed.enqueue ?_ ?_
      · intro queued
        rw [sound.queued i queued] at free
        cases free
      · have stopped : (s.table i).state = .stopped := free
        simp [Schedule.state, stopped]

end Schedule

theorem create_built {env : Env} {kernel kernel' : Kernel} {s : Schedule}
    {fp stack value : Word} (rep : Represents kernel s) (built : s.Built)
    (created : create env kernel fp stack = some (value, kernel')) :
    ∃ s', Represents kernel' s' ∧ s'.Built := by
  rcases create_cases created with outside | ⟨i, base, esp, pid, free, slot, outside, rfl⟩
  · exact ⟨s, rep.outside outside, built⟩
  · exact ⟨_, create_simulates rep built.sound esp pid outside free,
      .create built ((rep.state i).symm.trans free) slot⟩

theorem boot_built {env : Env} {d : Dispatcher} (booted : boot env = some d) :
    ∃ s s' : Schedule, s.Built ∧ s.pop = some (s', d.current) ∧ Represents d.kernel s' := by
  simp only [boot, Option.bind_eq_bind, Option.bind_eq_some_iff, Prod.exists] at booted
  obtain ⟨heap, _, _, idle, created, _, kernel, created', popped⟩ := booted
  have start : Represents (dispatchinit env heap) Schedule.empty :=
    ⟨⟨rfl, rfl⟩, ⟨rfl, rfl⟩, fun _ => rfl⟩
  obtain ⟨s₁, rep₁, built₁⟩ := create_built start .empty created
  obtain ⟨s₂, rep₂, built₂⟩ := create_built rep₁ built₁ created'
  obtain ⟨s', next, rep'⟩ := rep₂.pop built₂.sound popped
  exact ⟨s₂, s', built₂, next, rep'⟩

end XerosKernel
