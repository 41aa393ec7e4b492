import XerosKernel.QueueFrame
import XerosKernel.Runs

/-!
What `kill` leaves behind, whatever shape the queues are in: the result that it gives to a process
it interrupts, a signal that the target ignores, and a target that is not alive.
-/

namespace XerosKernel

open IntrusiveList Execution

section Parts

variable {kernel kernel' : Kernel} {p i : Slot}

theorem unlinked_same {β : Type} (same : kernel'.unlinked = kernel.unlinked) (field : Pcb → β)
    (kept : ∀ pcb : Pcb, field pcb.unlinked = field pcb) (i : Slot) :
    field (kernel'.proctab i) = field (kernel.proctab i) := by
  have entry : (kernel'.proctab i).unlinked = (kernel.proctab i).unlinked :=
    congrArg (fun k : Kernel => k.proctab i) same
  rw [← kept, entry, kept]

theorem killWake_waiting (waits : (kernel.proctab p).state = .wait) :
    killWake kernel p = some (ready (kernel.modify p fun pcb => { pcb with ret := -666 }) p) := by
  simp [killWake, waits]

theorem killWake_sleeping (sleeps : (kernel.proctab p).state = .sleep) :
    killWake kernel p = (killInSleep kernel p).map fun left =>
      ready (kernel.modify p fun pcb => { pcb with ret := left }) p := by
  simp only [killWake, sleeps, reduceCtorEq, if_false, if_true]
  cases killInSleep kernel p <;> rfl

theorem killWake_awake (notWaiting : (kernel.proctab p).state ≠ .wait)
    (notSleeping : (kernel.proctab p).state ≠ .sleep) : killWake kernel p = some kernel := by
  simp only [killWake, if_neg notWaiting, if_neg notSleeping]

theorem wakeWaiters_same {β : Type} (field : Pcb → β)
    (kept : ∀ (pcb : Pcb) (next : Option Slot) (state : ProcState) (waitpid : Word),
      field { pcb with next := next, state := state, waitpid := waitpid } = field pcb)
    (kernel : Kernel) (target i : Slot) :
    field ((wakeWaiters kernel target).proctab i) = field (kernel.proctab i) := by
  rw [wakeWaiters_eq]
  generalize (kernel.proctab target).pid = pid
  induction List.finRange MAX_PROC generalizing kernel with
  | nil => rfl
  | cons proc rest ih =>
      rw [List.foldl_cons, ih]
      unfold wakeWaiter
      split
      · refine (Kernel.modify_same _ proc (fun pcb => { pcb with waitpid := 0 }) field
          (kept _ _ _ _) i).trans ?_
        rw [ready_proctab]
        exact kept _ _ _ _
      · rfl

theorem wakeWaiter_state (pid : Word) (kernel : Kernel) (proc i : Slot) :
    ((wakeWaiter pid kernel proc).proctab i).state =
      if i = proc ∧ (kernel.proctab i).state = .wait ∧ (kernel.proctab i).waitpid = pid then .ready
      else (kernel.proctab i).state := by
  unfold wakeWaiter
  by_cases waits : (kernel.proctab proc).state = .wait ∧ (kernel.proctab proc).waitpid = pid
  · rw [if_pos waits, Kernel.modify_same _ proc (fun pcb => { pcb with waitpid := 0 }) (·.state) rfl,
      ready_proctab]
    by_cases isProc : i = proc
    · subst isProc
      simp [waits]
    · simp [isProc]
  · rw [if_neg waits, if_neg]
    rintro ⟨rfl, isWaiting⟩
    exact waits isWaiting

theorem wakeWaiters_awake (kernel : Kernel) (target : Slot)
    (awake : (kernel.proctab i).state ≠ .wait) :
    ((wakeWaiters kernel target).proctab i).state = (kernel.proctab i).state := by
  rw [wakeWaiters_eq]
  generalize (kernel.proctab target).pid = pid
  induction List.finRange MAX_PROC generalizing kernel with
  | nil => rfl
  | cons proc rest ih =>
      have kept : ((wakeWaiter pid kernel proc).proctab i).state = (kernel.proctab i).state := by
        rw [wakeWaiter_state, if_neg fun waits => awake waits.2.1]
      rw [List.foldl_cons, ih _ (kept ▸ awake), kept]

def WaitsFor (kernel : Kernel) (pid : Word) (i : Slot) : Prop :=
  (kernel.proctab i).state = .wait ∧ (kernel.proctab i).waitpid = pid

theorem wakeWaiter_waitsFor (pid : Word) (kernel : Kernel) (proc : Slot) :
    WaitsFor (wakeWaiter pid kernel proc) pid i ↔ WaitsFor kernel pid i ∧ i ≠ proc := by
  unfold WaitsFor
  rw [wakeWaiter_state]
  by_cases isProc : i = proc
  · subst isProc
    by_cases waits : (kernel.proctab i).state = .wait ∧ (kernel.proctab i).waitpid = pid
    · simp [waits]
    · simp [wakeWaiter, waits]
  · have waitpid : ((wakeWaiter pid kernel proc).proctab i).waitpid =
        (kernel.proctab i).waitpid := by
      unfold wakeWaiter
      split
      · simp [isProc, ready_proctab]
      · rfl
    simp [isProc, waitpid]

theorem foldl_waitsFor (pid : Word) (procs : List Slot) (kernel : Kernel) :
    WaitsFor (procs.foldl (wakeWaiter pid) kernel) pid i ↔
      WaitsFor kernel pid i ∧ i ∉ procs := by
  induction procs generalizing kernel with
  | nil => simp
  | cons proc rest ih =>
      rw [List.foldl_cons, ih, wakeWaiter_waitsFor, List.mem_cons, not_or, and_assoc]

theorem wakeWaiters_waitsFor (kernel : Kernel) (target : Slot) :
    ¬ WaitsFor (wakeWaiters kernel target) (kernel.proctab target).pid i := by
  rw [wakeWaiters_eq, foldl_waitsFor]
  exact fun waits => waits.2 (List.mem_finRange i)

theorem wakeWaiters_none (kernel : Kernel) (target : Slot)
    (none : ∀ i, ¬ WaitsFor kernel (kernel.proctab target).pid i) :
    wakeWaiters kernel target = kernel := by
  rw [wakeWaiters_eq]
  induction List.finRange MAX_PROC with
  | nil => rfl
  | cons proc rest ih =>
      have idle : wakeWaiter (kernel.proctab target).pid kernel proc = kernel := if_neg (none proc)
      rw [List.foldl_cons, idle, ih]

/-- `p` is not on the ready queue; a queue that only leads to `p` itself counts as well. -/
def OffReadyQueue (kernel : Kernel) (p : Slot) : Prop :=
  (∃ nodes, Chain kernel.link kernel.head nodes ∧ p ∉ nodes) ∨
    kernel.head = some p ∧ kernel.link p = some p

theorem searchFrom_absent {fuel : Nat} {prev : Slot} {curr : Option Slot}
    (absent : searchFrom kernel p fuel prev curr = some none) :
    ∃ nodes, Chain kernel.link curr nodes ∧ p ∉ nodes := by
  induction fuel generalizing prev curr with
  | zero => cases absent
  | succ fuel ih =>
      cases curr with
      | none => exact ⟨[], rfl, List.not_mem_nil⟩
      | some node =>
          simp only [searchFrom] at absent
          split at absent
          · cases absent
          · rename_i different
            obtain ⟨nodes, chain, notIn⟩ := ih absent
            refine ⟨node :: nodes, ⟨rfl, chain⟩, ?_⟩
            rw [List.mem_cons, not_or]
            exact ⟨fun same => different same.symm, notIn⟩

theorem searchFrom_found {fuel : Nat} {prev before : Slot} {curr : Option Slot}
    (other : prev ≠ p) (link : kernel.link prev = curr)
    (found : searchFrom kernel p fuel prev curr = some (some before)) :
    before ≠ p ∧ kernel.link before = some p := by
  induction fuel generalizing prev curr with
  | zero => cases found
  | succ fuel ih =>
      cases curr with
      | none => cases found
      | some node =>
          simp only [searchFrom] at found
          split at found
          · rename_i isP
            cases found
            exact ⟨other, isP ▸ link⟩
          · rename_i different
            exact ih different rfl found

theorem offReadyQueue_iff_search {first : Slot} (isHead : kernel.head = some first)
    (other : first ≠ p) : OffReadyQueue kernel p ↔
      searchFrom kernel p loopFuel first (kernel.proctab first).next = some none := by
  unfold OffReadyQueue
  rw [isHead]
  constructor
  · rintro (⟨nodes, chain, absent⟩ | ⟨same, _⟩)
    · cases nodes with
      | nil => cases chain
      | cons node rest =>
          obtain ⟨same, chain⟩ := chain
          obtain rfl : first = node := Option.some.inj same
          have enough : rest.length < loopFuel :=
            length_lt_loopFuel (List.nodup_cons.mp (Seg.nodup ⟨rfl, chain⟩)).2
          rcases searchFrom_of_chain p first chain enough with stops | ⟨front, before, back, split, _⟩
          · exact stops.2
          · exact absurd (by simp [split]) absent
    · exact absurd (Option.some.inj same) other
  · intro absent
    obtain ⟨nodes, chain, notIn⟩ := searchFrom_absent absent
    refine Or.inl ⟨first :: nodes, ⟨rfl, chain⟩, ?_⟩
    rw [List.mem_cons, not_or]
    exact ⟨fun same => other same.symm, notIn⟩

theorem removeFromReady_same :
    removeFromReady kernel p = some kernel ↔ OffReadyQueue kernel p := by
  cases isHead : kernel.head with
  | none =>
      have empty : OffReadyQueue kernel p :=
        Or.inl ⟨[], by rw [isHead]; rfl, List.not_mem_nil⟩
      simp [removeFromReady, isHead, empty]
  | some first =>
      by_cases isFirst : first = p
      · subst isFirst
        have onQueue : OffReadyQueue kernel first ↔ kernel.link first = some first := by
          unfold OffReadyQueue
          rw [isHead]
          constructor
          · rintro (⟨nodes, chain, absent⟩ | ⟨_, loop⟩)
            · exact absurd (List.mem_of_head? chain.head_eq.symm) absent
            · exact loop
          · exact fun loop => Or.inr ⟨rfl, loop⟩
        rw [onQueue]
        simp only [removeFromReady, isHead, if_true, Option.some.injEq]
        constructor
        · intro same
          have head := congrArg Kernel.head same
          rw [isHead, apply_ite Kernel.head, ite_self] at head
          exact head
        · intro loop
          have next : (kernel.proctab first).next = some first := loop
          rw [next, if_neg (by simp)]
          exact congrArg (fun head => { kernel with head := head }) isHead.symm
      · rw [offReadyQueue_iff_search isHead isFirst]
        cases search : searchFrom kernel p loopFuel first (kernel.proctab first).next with
        | none => simp [removeFromReady, isHead, isFirst, search]
        | some result =>
            cases result with
            | none => simp [removeFromReady, isHead, isFirst, search]
            | some prev =>
                obtain ⟨other, link⟩ := searchFrom_found isFirst rfl search
                rw [ReadyQueue.removeFromReady_bypass isHead isFirst search]
                refine iff_of_false ?_ (by simp)
                intro same
                -- `p` has lost its successor, and `prev` the link to `p`
                have removed := congrArg (fun k : Kernel => k.link p) (Option.some.inj same)
                have bypassed := congrArg (fun k : Kernel => k.link prev) (Option.some.inj same)
                simp only [ReadyQueue.bypass, Kernel.link, Kernel.modify_proctab, if_true,
                  if_neg other] at removed bypassed link
                rw [← removed, link] at bypassed
                cases bypassed

end Parts

section Calls

variable {env : Env} {kernel kernel' woken : Kernel} {pid signum value : Word} {target : Slot}

theorem kill_ret (reached : killTarget kernel pid signum = some target)
    (wakes : killWake kernel target = some woken)
    (killed : kill env kernel pid signum = some (value, kernel')) (i : Slot) :
    (kernel'.proctab i).ret = (woken.proctab i).ret := by
  obtain ⟨_, woken, wakes', parts⟩ := kill_parts reached killed
  rw [wakes'] at wakes
  cases wakes
  rcases parts with ⟨_, result⟩ | ⟨_, unlinked, unlinks, result⟩
  · rw [result, signal_ret]
  · rw [result, signal_ret, wakeWaiters_same (·.ret) (fun _ _ _ _ => rfl)]
    exact unlinked_same (killUnlink_unlinked unlinks) (·.ret) (fun _ => rfl) i

theorem kill_state (reached : killTarget kernel pid signum = some target)
    (wakes : killWake kernel target = some woken)
    (killed : kill env kernel pid signum = some (value, kernel')) {i : Slot}
    (awake : (woken.proctab i).state ≠ .wait) :
    (kernel'.proctab i).state = (woken.proctab i).state := by
  obtain ⟨_, woken, wakes', parts⟩ := kill_parts reached killed
  rw [wakes'] at wakes
  cases wakes
  have signalled : ∀ (kernel : Kernel) (signum : Fin MAX_SIG),
      ((signal env kernel target signum).2.proctab i).state = (kernel.proctab i).state :=
    fun kernel signum => (signal_touches env kernel target signum).same (·.state) (fun _ => rfl) i
  rcases parts with ⟨_, result⟩ | ⟨_, unlinked, unlinks, result⟩
  · rw [result, signalled]
  · have same : (unlinked.proctab i).state = (woken.proctab i).state :=
      unlinked_same (killUnlink_unlinked unlinks) (·.state) (fun _ => rfl) i
    rw [result, signalled, wakeWaiters_awake unlinked target (same ▸ awake), same]

theorem signal_ignored {p : Slot} {signum : Fin MAX_SIG}
    (ignored : (kernel.proctab p).sigtab signum = 0) :
    signal env kernel p signum = (0, kernel) := by
  simp [signal, ignored]

theorem kill_wakes (reached : killTarget kernel pid signum = some target)
    (wakes : (kernel.proctab target).state = .wait ∨ (kernel.proctab target).state = .sleep) :
    kill env kernel pid signum ≠ some (0, kernel) := by
  intro killed
  obtain ⟨_, woken, woke, _⟩ := kill_parts reached killed
  have isReady : (woken.proctab target).state = .ready := by
    rcases wakes with waits | sleeps
    · rw [killWake_waiting waits] at woke
      cases woke
      simp [ready_proctab]
    · rw [killWake_sleeping sleeps] at woke
      obtain ⟨left, _, rfl⟩ := Option.map_eq_some_iff.mp woke
      simp [ready_proctab]
  have state := kill_state reached woke killed (i := target) (by rw [isReady]; simp)
  rw [isReady] at state
  rcases wakes with waits | sleeps
  · rw [waits] at state
    cases state
  · rw [sleeps] at state
    cases state

theorem killUnlink_same (notSleeping : (kernel.proctab target).state ≠ .sleep) :
    killUnlink kernel target = some kernel ↔
      ((kernel.proctab target).state = .ready → OffReadyQueue kernel target) := by
  unfold killUnlink
  cases state : (kernel.proctab target).state with
  | ready => simpa using removeFromReady_same
  | sleep => exact absurd state notSleeping
  | _ => simp

theorem released_same {unlinked : Kernel} (unlinks : unlinked.unlinked = kernel.unlinked) :
    wakeWaiters unlinked target = kernel ↔
      unlinked = kernel ∧ ∀ i, ¬ WaitsFor kernel (kernel.proctab target).pid i := by
  have pid : (unlinked.proctab target).pid = (kernel.proctab target).pid :=
    unlinked_same unlinks (·.pid) (fun _ => rfl) target
  have waitsFor : ∀ i, WaitsFor unlinked (unlinked.proctab target).pid i ↔
      WaitsFor kernel (kernel.proctab target).pid i := by
    intro i
    unfold WaitsFor
    rw [pid, unlinked_same unlinks (·.state) (fun _ => rfl) i,
      unlinked_same unlinks (·.waitpid) (fun _ => rfl) i]
  constructor
  · intro same
    have none : ∀ i, ¬ WaitsFor kernel (kernel.proctab target).pid i := by
      intro i waits
      have left : ¬ WaitsFor (wakeWaiters unlinked target) (unlinked.proctab target).pid i :=
        wakeWaiters_waitsFor unlinked target
      rw [same, pid] at left
      exact left waits
    refine ⟨?_, none⟩
    rwa [wakeWaiters_none unlinked target fun i waits => none i ((waitsFor i).mp waits)] at same
  · rintro ⟨rfl, none⟩
    exact wakeWaiters_none unlinked target none

theorem kill_awake_ignored (reached : killTarget kernel pid signum = some target)
    (notWaiting : (kernel.proctab target).state ≠ .wait)
    (notSleeping : (kernel.proctab target).state ≠ .sleep)
    (ignored : (kernel.proctab target).sigtab (Fin.ofNat MAX_SIG signum.toNat) = 0) :
    kill env kernel pid signum = some (0, kernel) ↔ (signum = 31 →
      (∀ i, ¬ WaitsFor kernel (kernel.proctab target).pid i) ∧
      ((kernel.proctab target).state = .ready → OffReadyQueue kernel target)) := by
  rw [kill_reached env reached, killWake_awake notWaiting notSleeping, Option.bind_some]
  by_cases fatal : signum = 31
  · subst fatal
    rw [if_pos rfl, forall_prop_of_true rfl, and_comm, ← killUnlink_same notSleeping]
    have silent : ∀ unlinked, killUnlink kernel target = some unlinked →
        signal env (wakeWaiters unlinked target) target 31 = (0, wakeWaiters unlinked target) := by
      intro unlinked unlinks
      refine signal_ignored ?_
      rw [wakeWaiters_same (·.sigtab) (fun _ _ _ _ => rfl),
        unlinked_same (killUnlink_unlinked unlinks) (·.sigtab) (fun _ => rfl)]
      exact ignored
    constructor
    · intro killed
      obtain ⟨unlinked, unlinks, result⟩ := Option.map_eq_some_iff.mp killed
      rw [silent unlinked unlinks] at result
      have same := (released_same (killUnlink_unlinked unlinks)).mp (Prod.mk.inj result).2
      rw [same.1] at unlinks
      exact ⟨unlinks, same.2⟩
    · rintro ⟨unlinks, none⟩
      rw [unlinks, Option.map_some, silent kernel unlinks, wakeWaiters_none kernel target none]
  · rw [if_neg fatal, signal_ignored ignored]
    exact iff_of_true rfl fun isFatal => absurd isFatal fatal

end Calls

section Ignored

variable {env : Env} {kernel : Kernel} {pid signum : Word} {target : Slot}

theorem kill_ignored (inRange : ¬ (signum.toInt < 0 ∨ 31 < signum.toInt))
    (found : findPCB kernel pid = some target)
    (ignored : (kernel.proctab target).sigtab (Fin.ofNat MAX_SIG signum.toNat) = 0) :
    kill env kernel pid signum = some (0, kernel) ↔
      (kernel.proctab target).sigmask &&& signalMask (Fin.ofNat MAX_SIG signum.toNat) ≠ 0 ∨
      (kernel.proctab target).state ≠ .wait ∧ (kernel.proctab target).state ≠ .sleep ∧
        (signum = 31 → (∀ i, ¬ WaitsFor kernel (kernel.proctab target).pid i) ∧
          ((kernel.proctab target).state = .ready → OffReadyQueue kernel target)) := by
  by_cases pending :
    (kernel.proctab target).sigmask &&& signalMask (Fin.ofNat MAX_SIG signum.toNat) = 0
  · have reached : killTarget kernel pid signum = some target := by
      rw [killTarget, if_neg inRange, found, Option.filter_some, if_pos (decide_eq_true pending)]
    rw [or_iff_right (not_not_intro pending)]
    by_cases waits : (kernel.proctab target).state = .wait
    · exact iff_of_false (kill_wakes reached (Or.inl waits)) fun awake => awake.1 waits
    · by_cases sleeps : (kernel.proctab target).state = .sleep
      · exact iff_of_false (kill_wakes reached (Or.inr sleeps)) fun awake => awake.2.1 sleeps
      · rw [kill_awake_ignored reached waits sleeps ignored]
        exact ⟨fun rest => ⟨waits, sleeps, rest⟩, fun awake => awake.2.2⟩
  · refine iff_of_true ?_ (Or.inl pending)
    simp only [kill, if_neg inRange, found]
    exact if_pos pending

theorem kill_ignored_idle : ∃ d, Reaches sampleEnv anyRequest creatorRun d ∧
    kill sampleEnv d.kernel 1 5 = some (0, d.kernel) := by
  obtain ⟨d, reaches, isFound, ignored, state⟩ := reaches_of_check sampleEnv anyRequest creatorRun
    (fun d => findPCB d.kernel 1 = some 1 ∧
      (d.kernel.proctab 1).sigtab (Fin.ofNat MAX_SIG (5 : Word).toNat) = 0 ∧
      (d.kernel.proctab 1).state = .ready) (by decide +kernel)
  refine ⟨d, reaches, (kill_ignored (by decide) isFound ignored).mpr (Or.inr ?_)⟩
  rw [state]
  exact ⟨by decide, by decide, fun fatal => absurd fatal (by decide)⟩

/-- A sleeping process without a handler is woken all the same. -/
theorem kill_ignored_wakes : ∃ d, Reaches sampleEnv anyRequest sleeperRun d ∧
    d.request (syskill sampleFrame 3 5) = .kill 3 5 ∧
    findPCB (d.entered (syskill sampleFrame 3 5)) 3 = some 3 ∧
    ((d.entered (syskill sampleFrame 3 5)).proctab 3).sigtab 5 = 0 ∧
    kill sampleEnv (d.entered (syskill sampleFrame 3 5)) 3 5 ≠
      some (0, d.entered (syskill sampleFrame 3 5)) := by
  obtain ⟨d, reaches, found⟩ := reaches_of_check sampleEnv anyRequest sleeperRun
    (fun d => d.request (syskill sampleFrame 3 5) = .kill 3 5 ∧
      findPCB (d.entered (syskill sampleFrame 3 5)) 3 = some 3 ∧
      ((d.entered (syskill sampleFrame 3 5)).proctab 3).sigtab 5 = 0 ∧
      killTarget (d.entered (syskill sampleFrame 3 5)) 3 5 = some 3 ∧
      ((d.entered (syskill sampleFrame 3 5)).proctab 3).state = .sleep) (by decide +kernel)
  obtain ⟨request, isFound, ignored, reached, state⟩ := found
  exact ⟨d, reaches, request, isFound, ignored, kill_wakes reached (Or.inr state)⟩

end Ignored

section Dead

variable {env : Env} {kernel kernel' : Kernel} {p : Slot} {ports : Ports} {pid signum value : Word}

theorem findPCB_eq_none : findPCB kernel pid = none ↔ ∀ i, (kernel.proctab i).pid ≠ pid := by
  simp [findPCB, List.find?_eq_none]

theorem kill_found {target : Slot} (inRange : ¬ (signum.toInt < 0 ∨ 31 < signum.toInt))
    (found : findPCB kernel pid = some target)
    (killed : kill env kernel pid signum = some (value, kernel')) : value = 0 := by
  by_cases pending :
    (kernel.proctab target).sigmask &&& signalMask (Fin.ofNat MAX_SIG signum.toNat) = 0
  · have reached : killTarget kernel pid signum = some target := by
      rw [killTarget, if_neg inRange, found, Option.filter_some, if_pos (decide_eq_true pending)]
    exact (kill_parts reached killed).1
  · simp only [kill, if_neg inRange, found] at killed
    rw [if_pos pending] at killed
    exact (Prod.mk.inj (Option.some.inj killed)).1.symm

theorem reschedule_ret {d : Dispatcher} (popped : reschedule kernel = some d) (i : Slot) :
    (d.kernel.proctab i).ret = (kernel.proctab i).ret :=
  unlinked_same (reschedule_unlinked popped) (·.ret) (fun _ => rfl) i

theorem resume_ret (p : Slot) (value : Word) (kernel : Kernel) :
    ((resume p (value, kernel)).kernel.proctab p).ret = value := by
  simp [resume]

theorem kill_refused (inRange : ¬ (signum.toInt < 0 ∨ 31 < signum.toInt)) :
    serve env kernel p ports (.kill pid signum) = some (resume p (-999, kernel)) ↔
      ∀ i, (kernel.proctab i).pid ≠ pid := by
  rw [← findPCB_eq_none]
  constructor
  · intro refused
    by_contra live
    obtain ⟨target, found⟩ := Option.ne_none_iff_exists'.mp live
    obtain ⟨⟨value, kernel'⟩, killed, same⟩ := Option.map_eq_some_iff.mp refused
    have ret := congrArg (fun d : Dispatcher => (d.kernel.proctab p).ret) same
    simp only [resume_ret] at ret
    rw [kill_found inRange found killed] at ret
    exact absurd ret (by decide)
  · intro absent
    have dropped : kill env kernel pid signum = some (-999, kernel) := by
      simp only [kill, if_neg inRange, absent]
    exact Option.map_eq_some_iff.mpr ⟨_, dropped, rfl⟩

theorem wait_refused :
    serve env kernel p ports (.wait pid) = some (resume p (-1, kernel)) ↔
      pid = 0 ∨ ∀ i, (kernel.proctab i).pid ≠ pid := by
  rw [← findPCB_eq_none]
  cases found : findPCB kernel pid with
  | none => simp [serve, found]
  | some target =>
      by_cases zero : pid = 0
      · refine iff_of_true ?_ (Or.inl zero)
        simp only [serve, found]
        exact if_pos zero
      · simp only [serve, found, zero, reduceCtorEq, or_self, iff_false]
        intro popped
        have ret := reschedule_ret popped p
        rw [resume_ret, Kernel.modify_proctab, if_pos rfl] at ret
        have differs : (-1 : Word) ≠ 0 := by decide
        exact differs ret

theorem dead_refused (env : Env) (kernel : Kernel) (p : Slot) (ports : Ports) (pid : Word) :
    (∀ signum : Word, ¬ (signum.toInt < 0 ∨ 31 < signum.toInt) →
      (serve env kernel p ports (.kill pid signum) = some (resume p (-999, kernel)) ↔
        ∀ i, (kernel.proctab i).pid ≠ pid)) ∧
    (serve env kernel p ports (.wait pid) = some (resume p (-1, kernel)) ↔
      pid = 0 ∨ ∀ i, (kernel.proctab i).pid ≠ pid) :=
  ⟨fun _ inRange => kill_refused inRange, wait_refused⟩

/-- Process 3 has stopped, but its entry keeps the pid. -/
theorem stopped_not_refused : ∃ d, Reaches sampleEnv anyRequest
    (creatorRun ++ [sysstop sampleFrame]) d ∧
    (∀ i, (d.kernel.proctab i).pid = 3 → (d.kernel.proctab i).state = .stopped) ∧
    dispatch sampleEnv d (syskill sampleFrame 3 5) ≠
      some (resume d.current (-999, d.entered (syskill sampleFrame 3 5))) ∧
    dispatch sampleEnv d (syswait sampleFrame 3) ≠
      some (resume d.current (-1, d.entered (syswait sampleFrame 3))) := by
  obtain ⟨d, reaches, found⟩ := reaches_of_check sampleEnv anyRequest
    (creatorRun ++ [sysstop sampleFrame])
    (fun d => (∀ i, (d.kernel.proctab i).pid = 3 → (d.kernel.proctab i).state = .stopped) ∧
      d.request (syskill sampleFrame 3 5) = .kill 3 5 ∧
      ((d.entered (syskill sampleFrame 3 5)).proctab 3).pid = 3 ∧
      d.request (syswait sampleFrame 3) = .wait 3 ∧
      ((d.entered (syswait sampleFrame 3)).proctab 3).pid = 3) (by decide +kernel)
  obtain ⟨dead, kills, killsEntry, waits, waitsEntry⟩ := found
  refine ⟨d, reaches, dead, ?_, ?_⟩
  · intro refused
    rw [Dispatcher.dispatch_eq, kills] at refused
    exact (kill_refused (by decide)).mp refused 3 killsEntry
  · intro refused
    rw [Dispatcher.dispatch_eq, waits] at refused
    rcases wait_refused.mp refused with zero | absent
    · exact absurd zero (by decide)
    · exact absent 3 waitsEntry

end Dead

end XerosKernel
