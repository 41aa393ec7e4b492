import XerosKernel.QueueFrame
import XerosKernel.Runs

/-!
Process numbers and slots. `create` numbers a process so that the number leads back to its
slot, and no later request renames an entry without refilling it. The queue operations are
followed through pointers: whatever shape the queues have, they lead only to slots that have
held a process.
-/

namespace XerosKernel

open Execution

/-- The queues, the links and the states show only slots in `named`. -/
structure Confined (named : Slot → Prop) (kernel : Kernel) : Prop where
  head : ∀ i ∈ kernel.head, named i
  sleepQ : ∀ i ∈ kernel.sleepQ, named i
  link : ∀ i, ∀ j ∈ kernel.link i, named j
  active : ∀ i, (kernel.proctab i).state ≠ .stopped → named i

variable {named : Slot → Prop} {env : Env} {kernel kernel' : Kernel} {p : Slot}
  {d d' : Dispatcher}

namespace Confined

theorem modify (confined : Confined named kernel) (change : Pcb → Pcb)
    (link : ∀ j ∈ (change (kernel.proctab p)).next, named j)
    (active : (change (kernel.proctab p)).state ≠ .stopped → named p) :
    Confined named (kernel.modify p change) where
  head := confined.head
  sleepQ := confined.sleepQ
  link := by
    intro i
    rw [Kernel.link, Kernel.modify_proctab]
    split
    · rename_i isP
      rw [isP]
      exact link
    · exact confined.link i
  active := by
    intro i
    rw [Kernel.modify_proctab]
    split
    · rename_i isP
      rw [isP]
      exact active
    · exact confined.active i

theorem modify_quiet (confined : Confined named kernel) (change : Pcb → Pcb)
    (link : ∀ pcb, (change pcb).next = pcb.next ∨ (change pcb).next = none)
    (state : ∀ pcb, (change pcb).state = pcb.state ∨ (change pcb).state = .stopped) :
    Confined named (kernel.modify p change) := by
  refine confined.modify change ?_ ?_
  · rcases link (kernel.proctab p) with same | none
    · rw [same]
      exact confined.link p
    · rw [none]
      simp
  · rcases state (kernel.proctab p) with same | stopped
    · rw [same]
      exact confined.active p
    · exact fun active => absurd stopped active

theorem setHead (confined : Confined named kernel) {head tail : Option Slot}
    (inside : ∀ i ∈ head, named i) :
    Confined named { kernel with head := head, tail := tail } :=
  ⟨inside, confined.sleepQ, confined.link, confined.active⟩

theorem setSleepQ (confined : Confined named kernel) {sleepQ : Option Slot}
    (inside : ∀ i ∈ sleepQ, named i) : Confined named { kernel with sleepQ := sleepQ } :=
  ⟨confined.head, inside, confined.link, confined.active⟩

theorem touches (confined : Confined named kernel) (touched : Touches p kernel kernel') :
    Confined named kernel' where
  head := touched.head ▸ confined.head
  sleepQ := touched.sleepQ ▸ confined.sleepQ
  link := by
    intro i
    rw [Kernel.link, touched.same (·.next) fun _ => rfl]
    exact confined.link i
  active := by
    intro i
    rw [touched.same (·.state) fun _ => rfl]
    exact confined.active i

theorem outside (confined : Confined named kernel) (same : Outside kernel kernel') :
    Confined named kernel' where
  head := same.head ▸ confined.head
  sleepQ := same.sleepQ ▸ confined.sleepQ
  link := fun i => by
    rw [Kernel.link, same.table]
    exact confined.link i
  active := fun i => by
    rw [same.table]
    exact confined.active i

theorem mono {wider : Slot → Prop} (confined : Confined named kernel)
    (widen : ∀ i, named i → wider i) : Confined wider kernel where
  head := fun i isHead => widen i (confined.head i isHead)
  sleepQ := fun i isFirst => widen i (confined.sleepQ i isFirst)
  link := fun i j isLink => widen j (confined.link i j isLink)
  active := fun i active => widen i (confined.active i active)

/-! The ready queue. -/

theorem filled (confined : Confined named kernel) (outside : Outside kernel kernel')
    (isNamed : named p) (esp pid : Word) : Confined named (kernel'.modify p fun pcb =>
      { pcb with esp := esp, state := .ready, pid := pid }) :=
  (confined.outside outside).modify _ ((confined.outside outside).link p) fun _ => isNamed

theorem ready (confined : Confined named kernel) (isNamed : named p) :
    Confined named (ready kernel p) where
  head := by
    rw [ready_head]
    split
    · simpa using isNamed
    · exact confined.head
  sleepQ := by
    rw [ready_sleepQ]
    exact confined.sleepQ
  link := by
    intro i
    rw [ready_link]
    split
    · simpa using isNamed
    · split
      · simp
      · exact confined.link i
  active := by
    intro i
    rw [ready_proctab]
    by_cases isP : i = p
    · exact fun _ => isP ▸ isNamed
    · simpa [isP] using confined.active i

theorem reschedule (confined : Confined named kernel) (popped : reschedule kernel = some d) :
    Confined named d.kernel ∧ named d.current := by
  rw [XerosKernel.reschedule, next_eq, Option.map_map] at popped
  obtain ⟨first, head, rfl⟩ := Option.map_eq_some_iff.mp popped
  refine ⟨?_, confined.head first head⟩
  have taken : Confined named
      { kernel with
        head := kernel.link first
        tail := if kernel.link first = none then none else kernel.tail } :=
    confined.setHead (confined.link first)
  exact taken.modify_quiet (fun pcb => { pcb with next := none, prev := none })
    (fun _ => Or.inr rfl) fun _ => Or.inl rfl

theorem removeFromReady (confined : Confined named kernel)
    (removed : removeFromReady kernel p = some kernel') : Confined named kernel' := by
  unfold XerosKernel.removeFromReady at removed
  split at removed
  · cases removed
    exact confined
  · split at removed
    · cases removed
      split
      · exact confined.setHead (confined.link p)
      · exact confined.setHead (confined.link p)
    · split at removed
      · cases removed
      · cases removed
        exact confined
      · rename_i prev _
        cases removed
        have bypassed := confined.modify (p := prev) (fun pcb =>
          { pcb with next := (kernel.proctab p).next }) (confined.link p) (confined.active prev)
        split
        · exact (bypassed.setHead bypassed.head).modify_quiet (fun pcb =>
            { pcb with next := none }) (fun _ => Or.inr rfl) fun _ => Or.inl rfl
        · exact bypassed.modify_quiet (fun pcb => { pcb with next := none })
            (fun _ => Or.inr rfl) fun _ => Or.inl rfl

/-! The sleep queue. -/

theorem asleep (confined : Confined named kernel) (isNamed : named p) :
    Confined named (asleep kernel p) :=
  confined.modify (fun pcb => { pcb with state := .sleep, next := none, prev := none })
    (by simp) fun _ => isNamed

theorem spliced (confined : Confined named kernel) (isNamed : named p) (tmp : Slot)
    (len : Word) : Confined named (spliced kernel p tmp len) := by
  have placed := confined.modify (p := p) (fun pcb =>
    { pcb with next := kernel.link tmp, prev := some tmp, sleepdiff := len })
    (confined.link tmp) fun _ => isNamed
  exact placed.modify (fun pcb => { pcb with next := some p }) (by simpa using isNamed)
    (placed.active tmp)

theorem sleep (confined : Confined named kernel) (isNamed : named p) {len : Word}
    (slept : sleep kernel p len = some kernel') : Confined named kernel' := by
  have start := confined.asleep isNamed
  unfold XerosKernel.sleep at slept
  split at slept
  · cases slept
    exact confined.ready isNamed
  · simp only at slept
    split at slept
    · cases slept
      exact (start.setSleepQ (by simpa using isNamed)).modify_quiet _ (fun _ => Or.inl rfl)
        fun _ => Or.inl rfl
    · rename_i first isFirst
      split at slept
      · cases slept
        have linked := start.modify (p := p) (fun pcb => { pcb with next := some first })
          (by simpa using start.sleepQ first isFirst) fun _ => isNamed
        have shrunk := linked.modify_quiet (p := first) (fun pcb =>
          { pcb with sleepdiff := pcb.sleepdiff - len / MILLISECONDS_TICK })
          (fun _ => Or.inl rfl) fun _ => Or.inl rfl
        have timed := shrunk.modify_quiet (p := p) (fun pcb =>
          { pcb with sleepdiff := len / MILLISECONDS_TICK })
          (fun _ => Or.inl rfl) fun _ => Or.inl rfl
        exact timed.setSleepQ (by simpa using isNamed)
      · split at slept
        · cases slept
        · rename_i tmp left _
          have entered := start.spliced isNamed tmp left
          split at slept
          · cases slept
            exact entered
          · cases slept
            exact entered.modify_quiet _ (fun _ => Or.inl rfl) fun _ => Or.inl rfl

theorem tickLoop {fuel : Nat} (confined : Confined named kernel)
    (looped : tickLoop fuel kernel = some kernel') : Confined named kernel' := by
  induction fuel generalizing kernel with
  | zero => cases looped
  | succ fuel ih =>
      unfold XerosKernel.tickLoop at looped
      split at looped
      · cases looped
        exact confined
      · rename_i tmp isFirst
        have isNamed := confined.sleepQ tmp isFirst
        split at looped
        · cases looped
          exact confined
        · have taken : Confined named { kernel with sleepQ := kernel.link tmp } :=
            confined.setSleepQ (confined.link tmp)
          have woken := taken.modify (p := tmp) (fun pcb =>
            { pcb with state := .ready, next := none, prev := none, ret := 0 })
            (by simp) fun _ => isNamed
          exact ih (woken.ready isNamed) looped

theorem tick (confined : Confined named kernel) (ticked : tick kernel = some kernel') :
    Confined named kernel' := by
  unfold XerosKernel.tick at ticked
  split at ticked
  · cases ticked
    exact confined
  · rename_i first _
    have counted := confined.modify_quiet (p := first) (fun pcb =>
      { pcb with sleepdiff := pcb.sleepdiff - 1 }) (fun _ => Or.inl rfl) fun _ => Or.inl rfl
    exact counted.tickLoop ticked

theorem removeFromSleep (confined : Confined named kernel)
    (removed : removeFromSleep kernel p = some kernel') : Confined named kernel' := by
  unfold XerosKernel.removeFromSleep at removed
  split at removed
  · cases removed
    exact confined
  · split at removed
    · have taken : Confined named { kernel with sleepQ := kernel.link p } :=
        confined.setSleepQ (confined.link p)
      simp only at removed
      split at removed
      · cases removed
        exact taken
      · cases removed
        exact taken.modify_quiet _ (fun _ => Or.inl rfl) fun _ => Or.inl rfl
    · split at removed
      · cases removed
      · cases removed
        exact confined
      · rename_i prev _
        have bypassed := confined.modify (p := prev) (fun pcb =>
          { pcb with next := (kernel.proctab p).next }) (confined.link p) (confined.active prev)
        simp only at removed
        split at removed
        · cases removed
          exact bypassed
        · rename_i q _
          cases removed
          have grown := bypassed.modify_quiet (p := q) (fun pcb =>
            { pcb with sleepdiff := pcb.sleepdiff +
              ((kernel.modify prev fun pcb => { pcb with next := (kernel.proctab p).next }).proctab
                p).sleepdiff }) (fun _ => Or.inl rfl) fun _ => Or.inl rfl
          exact grown.modify_quiet (fun pcb => { pcb with next := none }) (fun _ => Or.inr rfl)
            fun _ => Or.inl rfl

/-! The calls on other processes. -/

theorem answered (confined : Confined named kernel) (isNamed : named p) (value : Word) :
    Confined named
      (XerosKernel.ready (kernel.modify p fun pcb => { pcb with ret := value }) p) := by
  have written := confined.modify_quiet (p := p) (fun pcb => { pcb with ret := value })
    (fun _ => Or.inl rfl) fun _ => Or.inl rfl
  exact written.ready isNamed

theorem killWake (confined : Confined named kernel)
    (woken : killWake kernel p = some kernel') : Confined named kernel' := by
  unfold XerosKernel.killWake at woken
  have first : Confined named (if (kernel.proctab p).state = .wait then
      XerosKernel.ready (kernel.modify p fun pcb => { pcb with ret := -666 }) p else kernel) := by
    split
    · rename_i waits
      exact confined.answered (confined.active p (by simp [waits])) _
    · exact confined
  generalize (if (kernel.proctab p).state = .wait then
    XerosKernel.ready (kernel.modify p fun pcb => { pcb with ret := -666 }) p else kernel) = middle
    at first woken
  simp only at woken
  split at woken
  · rename_i sleeps
    split at woken
    · cases woken
    · cases woken
      exact first.answered (first.active p (by simp [sleeps])) _
  · cases woken
    exact first

theorem killUnlink (confined : Confined named kernel)
    (unlinked : killUnlink kernel p = some kernel') : Confined named kernel' := by
  unfold XerosKernel.killUnlink at unlinked
  split at unlinked
  · exact confined.removeFromReady unlinked
  · exact confined.removeFromSleep unlinked
  · cases unlinked
    exact confined

theorem wakeWaiters (confined : Confined named kernel) (target : Slot) :
    Confined named (wakeWaiters kernel target) := by
  unfold XerosKernel.wakeWaiters
  generalize List.finRange MAX_PROC = procs
  induction procs generalizing kernel with
  | nil => exact confined
  | cons i rest ih =>
      rw [List.foldl_cons]
      refine ih ?_
      split
      · rename_i waits
        exact (confined.ready (confined.active i (by simp [waits.1]))).modify_quiet _
          (fun _ => Or.inl rfl) fun _ => Or.inl rfl
      · exact confined

theorem kill {pid signum value : Word} (confined : Confined named kernel)
    (killed : kill env kernel pid signum = some (value, kernel')) : Confined named kernel' := by
  cases reached : killTarget kernel pid signum with
  | none =>
      obtain ⟨value', dropped⟩ := kill_dropped env reached
      rw [dropped] at killed
      cases killed
      exact confined
  | some target =>
      rw [kill_reached env reached] at killed
      obtain ⟨woken, wakes, rest⟩ := Option.bind_eq_some_iff.mp killed
      have first := confined.killWake wakes
      split at rest
      · obtain ⟨unlinked, unlinks, result⟩ := Option.map_eq_some_iff.mp rest
        have signalled := ((first.killUnlink unlinks).wakeWaiters target).touches
          (signal_touches env _ target 31)
        rwa [result] at signalled
      · have signalled := first.touches (signal_touches env woken target
          (Fin.ofNat MAX_SIG signum.toNat))
        rwa [Option.some.inj rest] at signalled

end Confined

/-! The numbers. -/

def LeadsBack (kernel : Kernel) (i : Slot) : Prop := slotOf (kernel.proctab i).pid = i

/-- An entry that was never used has the number 0 that `dispatchinit` left there. -/
structure Numbered (kernel : Kernel) : Prop extends Confined (LeadsBack kernel) kernel where
  number : ∀ i, (kernel.proctab i).pid = 0 ∨ LeadsBack kernel i

def SamePids (kernel kernel' : Kernel) : Prop :=
  ∀ i, (kernel'.proctab i).pid = (kernel.proctab i).pid

theorem SamePids.names (same : SamePids kernel kernel') : LeadsBack kernel' = LeadsBack kernel := by
  funext i
  rw [LeadsBack, same i, LeadsBack]

theorem Numbered.samePids (numbered : Numbered kernel) (same : SamePids kernel kernel')
    (confined : Confined (LeadsBack kernel) kernel') : Numbered kernel' := by
  rw [← same.names] at confined
  refine ⟨confined, fun i => ?_⟩
  rw [same.names, same i]
  exact numbered.number i

theorem Touches.samePids (touched : Touches p kernel kernel') : SamePids kernel kernel' :=
  fun i => touched.same (·.pid) (fun _ => rfl) i

theorem Requeues.samePids (requeues : Requeues kernel kernel') : SamePids kernel kernel' := by
  intro i
  have personal := congrArg Pcb.pid (requeues.personal i)
  exact personal

namespace Numbered

theorem requeues (numbered : Numbered kernel) (requeues : Requeues kernel kernel')
    (confined : Confined (LeadsBack kernel) kernel') : Numbered kernel' :=
  numbered.samePids requeues.samePids confined

theorem touches (numbered : Numbered kernel) (touched : Touches p kernel kernel') :
    Numbered kernel' :=
  numbered.samePids touched.samePids (numbered.toConfined.touches touched)

theorem create {fp stackSize value : Word} (numbered : Numbered kernel)
    (created : create env kernel fp stackSize = some (value, kernel')) :
    Numbered kernel' ∧ ∀ i, LeadsBack kernel i → LeadsBack kernel' i := by
  rcases create_cases created with outside | ⟨slot, base, esp, pid, _, leads, outside, rfl⟩
  · have same : SamePids kernel kernel' := fun i => by rw [outside.table]
    exact ⟨numbered.samePids same (numbered.toConfined.outside outside), by simp [same.names]⟩
  · generalize filled : base.modify slot (fun pcb =>
      { pcb with esp := esp, state := .ready, pid := pid }) = middle
    have pids : ∀ i, (middle.proctab i).pid = if i = slot then pid else (kernel.proctab i).pid := by
      intro i
      rw [← filled, Kernel.modify_proctab, outside.table]
      split <;> rfl
    have new : LeadsBack middle slot := by
      rw [LeadsBack, pids, if_pos rfl]
      exact leads.symm
    have kept : ∀ i, LeadsBack kernel i → LeadsBack middle i := by
      intro i isNamed
      by_cases isSlot : i = slot
      · exact isSlot ▸ new
      · rwa [LeadsBack, pids, if_neg isSlot]
    have confined : Confined (LeadsBack middle) middle := by
      have written := (numbered.toConfined.mono kept).filled outside new esp pid
      rwa [filled] at written
    have entered : Numbered middle := by
      refine ⟨confined, fun i => ?_⟩
      by_cases isSlot : i = slot
      · exact Or.inr (isSlot ▸ new)
      · rw [pids, if_neg isSlot]
        exact (numbered.number i).imp id (kept i)
    have readied := ready_requeues middle slot
    refine ⟨entered.requeues readied (confined.ready new), ?_⟩
    rwa [readied.samePids.names]

end Numbered

/-! Rounds and runs. -/

structure Follows (kernel : Kernel) (d : Dispatcher) : Prop where
  numbered : Numbered d.kernel
  current : LeadsBack d.kernel d.current
  kept : ∀ i, LeadsBack kernel i → LeadsBack d.kernel i

theorem Follows.trans (kept : ∀ i, LeadsBack kernel i → LeadsBack kernel' i)
    (follows : Follows kernel' d) : Follows kernel d :=
  ⟨follows.numbered, follows.current, fun i isNamed => follows.kept i (kept i isNamed)⟩

structure KeepsNames (p : Slot) (kernel : Kernel) (d : Dispatcher) : Prop where
  pids : SamePids kernel d.kernel
  confined : ∀ {named : Slot → Prop}, Confined named kernel → named p →
    Confined named d.kernel ∧ named d.current

namespace KeepsNames

theorem stay (touched : Touches p kernel d.kernel) (current : d.current = p) :
    KeepsNames p kernel d :=
  ⟨touched.samePids, fun confined isNamed => ⟨confined.touches touched, current ▸ isNamed⟩⟩

theorem pop (pids : SamePids kernel kernel')
    (confined : ∀ {named : Slot → Prop}, Confined named kernel → named p → Confined named kernel')
    (popped : reschedule kernel' = some d) : KeepsNames p kernel d where
  pids := fun i => ((reschedule_requeues popped).samePids i).trans (pids i)
  confined := fun before isNamed => (confined before isNamed).reschedule popped

theorem after (pids : SamePids kernel kernel')
    (confined : ∀ {named : Slot → Prop}, Confined named kernel → named p → Confined named kernel')
    (keeps : KeepsNames p kernel' d) : KeepsNames p kernel d where
  pids := fun i => (keeps.pids i).trans (pids i)
  confined := fun before isNamed => keeps.confined (confined before isNamed) isNamed

theorem follows (keeps : KeepsNames p kernel d) (numbered : Numbered kernel)
    (isNamed : LeadsBack kernel p) : Follows kernel d := by
  obtain ⟨confined, current⟩ := keeps.confined numbered.toConfined isNamed
  refine ⟨numbered.samePids keeps.pids confined, ?_, fun i => ?_⟩
  · rwa [keeps.pids.names]
  · rw [keeps.pids.names]
    exact id

end KeepsNames

theorem kill_samePids {pid signum value : Word}
    (killed : kill env kernel pid signum = some (value, kernel')) : SamePids kernel kernel' := by
  rcases kill_cases killed with ⟨_, rfl⟩ | ⟨target, woken, _, moves, rfl⟩
  · exact fun _ => rfl
  · intro i
    have signalled := (signal_touches env woken target (Fin.ofNat MAX_SIG signum.toNat)).samePids i
    exact signalled.trans (moves.toRequeues.samePids i)

theorem modify_samePids (kernel : Kernel) (p : Slot) (change : Pcb → Pcb)
    (same : ∀ pcb, (change pcb).pid = pcb.pid) : SamePids kernel (kernel.modify p change) :=
  fun i => kernel.modify_same p change (·.pid) (same _) i

theorem serve_keepsNames {ports : Ports} {request : Request}
    (other : ∀ fp stack, request ≠ .create fp stack)
    (served : serve env kernel p ports request = some d) : KeepsNames p kernel d := by
  cases request with
  | create fp stack => exact absurd rfl (other fp stack)
  | yield =>
      exact .pop (ready_requeues kernel p).samePids (fun confined => confined.ready) served
  | stop =>
      exact .pop (modify_samePids kernel p (fun pcb => { pcb with state := .stopped })
        fun _ => rfl) (fun confined _ => confined.modify_quiet (fun pcb =>
          { pcb with state := .stopped }) (fun _ => Or.inl rfl) fun _ => Or.inr rfl) served
  | kill pid signum =>
      obtain ⟨⟨value, kernel'⟩, killed, rfl⟩ := Option.map_eq_some_iff.mp served
      exact .after (kill_samePids killed) (fun confined _ => confined.kill killed)
        (.stay (resume_private kernel' p value).toTouches rfl)
  | sleep len =>
      obtain ⟨kernel', slept, popped⟩ := Option.bind_eq_some_iff.mp served
      exact .pop (sleep_requeues slept).samePids
        (fun confined isNamed => confined.sleep isNamed slept) popped
  | timer =>
      obtain ⟨kernel', ticked, popped⟩ := Option.bind_eq_some_iff.mp served
      refine .pop (fun i => ?_) (fun confined isNamed => ?_) popped
      · have same := (tick_requeues ticked).samePids i
        have written := modify_samePids kernel' p (fun pcb =>
          { pcb with cpuTime := pcb.cpuTime + 1 }) (fun _ => rfl) i
        exact ((ready_requeues _ p).samePids i).trans (written.trans same)
      · have counted := (confined.tick ticked).modify_quiet (p := p) (fun pcb =>
          { pcb with cpuTime := pcb.cpuTime + 1 }) (fun _ => Or.inl rfl) fun _ => Or.inl rfl
        exact counted.ready isNamed
  | wait pid =>
      rcases serve_wait served with ⟨_, rfl⟩ | ⟨_, _, popped⟩
      · exact .stay (resume_private kernel p (-1)).toTouches rfl
      · refine .pop (modify_samePids kernel p (fun pcb =>
          { pcb with state := .wait, waitpid := pid, ret := 0 }) fun _ => rfl) ?_ popped
        exact fun confined isNamed => confined.modify _ (confined.link p) fun _ => isNamed
  | read fd buff bufflen =>
      obtain ⟨⟨value, kernel'⟩, read, rest⟩ := Option.bind_eq_some_iff.mp served
      have answered : SamePids kernel kernel' ∧ ∀ {named : Slot → Prop},
          Confined named kernel → named p → Confined named kernel' := by
        rcases diRead_cases read with ⟨stays, _⟩ | ⟨_, _, middle, stays, rfl⟩ |
          ⟨_, middle, stays, rfl⟩ | ⟨_, _, stays⟩
        · exact ⟨stays.samePids, fun confined _ => confined.touches stays.toTouches⟩
        · refine ⟨fun i => ?_, fun confined => (confined.touches stays.toTouches).ready⟩
          exact ((ready_requeues middle p).samePids i).trans (stays.samePids i)
        · refine ⟨fun i => ?_, fun confined isNamed =>
            (confined.touches stays.toTouches).modify _ ?_ fun _ => isNamed⟩
          · exact (modify_samePids middle p (fun pcb => { pcb with state := .blocked })
              (fun _ => rfl) i).trans (stays.samePids i)
          · exact (confined.touches stays.toTouches).link p
        · exact ⟨stays.samePids, fun confined _ => confined.touches stays.toTouches⟩
      simp only at rest
      split at rest
      · exact .pop answered.1 answered.2 rest
      · cases rest
        exact .after answered.1 answered.2 (.stay (resume_private kernel' p value).toTouches rfl)
  | _ =>
      obtain ⟨current, stays⟩ := serve_local (by trivial) served
      exact .stay stays.toTouches current

theorem serve_follows {ports : Ports} {request : Request} (numbered : Numbered kernel)
    (isNamed : LeadsBack kernel p) (served : serve env kernel p ports request = some d) :
    Follows kernel d := by
  rcases serve_creates served with ⟨fp, stack, value, kernel', rfl, created, rfl⟩ | other
  · obtain ⟨numbered', kept⟩ := numbered.create created
    have stays : KeepsNames p kernel' (resume p (value, kernel')) :=
      .stay (resume_private kernel' p value).toTouches rfl
    exact .trans kept (stays.follows numbered' (kept p isNamed))
  · exact (serve_keepsNames other served).follows numbered isNamed

theorem dispatch_follows {trap : Trap} (numbered : Numbered d.kernel)
    (isNamed : LeadsBack d.kernel d.current) (stepped : dispatch env d trap = some d') :
    Follows d.kernel d' := by
  have entered := (contextswitch_private d.kernel d.current trap).toTouches
  have same := entered.samePids.names
  refine .trans (fun i => ?_) (serve_follows (numbered.touches entered) ?_ stepped)
  · rw [same]
    exact id
  · rwa [same]

theorem run_follows {traps : List Trap} (numbered : Numbered d.kernel)
    (isNamed : LeadsBack d.kernel d.current) (reached : run (dispatch env) d traps = some d') :
    Follows d.kernel d' := by
  induction traps generalizing d with
  | nil =>
      simp only [run, Option.some.injEq] at reached
      subst reached
      exact ⟨numbered, isNamed, fun _ => id⟩
  | cons trap rest ih =>
      obtain ⟨after, stepped, tail⟩ := run_cons_eq_some.mp reached
      have first := dispatch_follows numbered isNamed stepped
      exact .trans first.kept (ih first.numbered first.current tail)

theorem boot_follows (booted : boot env = some d) :
    Numbered d.kernel ∧ LeadsBack d.kernel d.current := by
  simp only [boot, Option.bind_eq_bind, Option.bind_eq_some_iff, Prod.exists] at booted
  obtain ⟨heap, _, _, idle, created, _, kernel, created', popped⟩ := booted
  have start : Numbered (dispatchinit env heap) := by
    refine ⟨⟨by simp [dispatchinit], by simp [dispatchinit], ?_, ?_⟩, fun _ => Or.inl rfl⟩
    · simp [dispatchinit, Kernel.link]
    · simp [dispatchinit]
  have filled := (start.create created).1.create created'
  obtain ⟨confined, current⟩ := filled.1.toConfined.reschedule popped
  have same := (reschedule_requeues popped).samePids
  exact ⟨filled.1.samePids same confined, by rwa [same.names]⟩

theorem Numbered.findPCB (numbered : Numbered kernel) {i : Slot} (isNamed : LeadsBack kernel i) :
    findPCB kernel (kernel.proctab i).pid = some i := by
  have same : ∀ j, (kernel.proctab j).pid = (kernel.proctab i).pid → i ≤ j := by
    intro j equal
    rcases numbered.number j with zero | named'
    · have isZero : slotOf 0 = i := by
        rw [← zero, equal]
        exact isNamed
      rw [← isZero]
      exact Fin.zero_le j
    · rw [LeadsBack, equal] at named'
      rw [← named']
      exact le_of_eq isNamed.symm
  rw [XerosKernel.findPCB, List.find?_eq_some_iff_getElem]
  refine ⟨by simp, i.val, by simp, by simp, fun j below => ?_⟩
  have other : ¬ (kernel.proctab ⟨j, by omega⟩).pid = (kernel.proctab i).pid := by
    intro equal
    have least := same _ equal
    exact absurd below (Nat.not_lt.mpr least)
  simpa using other

/-- In every run, an entry that a process has used keeps a number that leads back to its
slot; so the numbers of the processes differ, and `findPCB` finds each of them. -/
theorem process_ids {env : Env} {before after : List Trap} {d d' : Dispatcher}
    (reaches : Reaches env anyRequest before d) (reached : run (dispatch env) d after = some d') :
    (∀ i, (d.kernel.proctab i).state ≠ .stopped →
      (d'.kernel.proctab i).pid.toNat % MAX_PROC = i.val) ∧
    (∀ i j, (d'.kernel.proctab i).state ≠ .stopped → (d'.kernel.proctab j).state ≠ .stopped →
      (d'.kernel.proctab i).pid = (d'.kernel.proctab j).pid → i = j) ∧
    ∀ i, (d'.kernel.proctab i).state ≠ .stopped →
      findPCB d'.kernel (d'.kernel.proctab i).pid = some i := by
  obtain ⟨start, booted, _, reached₀⟩ := reaches
  obtain ⟨numbered₀, current₀⟩ := boot_follows booted
  have first := run_follows numbered₀ current₀ reached₀
  have second := run_follows first.numbered first.current reached
  have active := second.numbered.active
  refine ⟨fun i used => ?_, fun i j used used' equal => ?_, fun i used => ?_⟩
  · have isNamed := second.kept i (first.numbered.active i used)
    exact congrArg Fin.val isNamed
  · have isNamed := active i used
    rw [LeadsBack, equal] at isNamed
    exact isNamed.symm.trans (active j used')
  · exact second.numbered.findPCB (active i used)

theorem process_ids_stopped : ∃ (d d' : Dispatcher), Reaches sampleEnv anyRequest creatorRun d ∧
    run (dispatch sampleEnv) d [sysstop sampleFrame] = some d' ∧
    (d'.kernel.proctab 3).state = .stopped ∧
    (d'.kernel.proctab 3).pid.toNat % MAX_PROC = (3 : Slot).val := by
  obtain ⟨d, reaches, outcome⟩ := reaches_of_check sampleEnv anyRequest creatorRun
    (fun d => (d.kernel.proctab 3).state ≠ .stopped ∧
      ∃ d' ∈ run (dispatch sampleEnv) d [sysstop sampleFrame],
        (d'.kernel.proctab 3).state = .stopped) (by decide +kernel)
  obtain ⟨active, d', reached, stopped⟩ := outcome
  exact ⟨d, d', reaches, reached, stopped, (process_ids reaches reached).1 3 active⟩

end XerosKernel
