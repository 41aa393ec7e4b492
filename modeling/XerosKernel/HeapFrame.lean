import XerosKernel.KillEffects

/-!
Who calls the memory manager. Within the kernel only `create` does; every other request leaves the
heap as it is.
-/

namespace XerosKernel

variable {env : Env} {kernel kernel' : Kernel} {p : Slot} {ports : Ports} {request : Request}
  {d d' : Dispatcher} {fd buff bufflen value : Word}

/-! The queues. -/

def Kernel.outer (kernel : Kernel) : Kernel :=
  { kernel with proctab := fun _ => {}, head := none, tail := none, sleepQ := none }

/-- Nothing but the process table and the queues changes. -/
def Rearranges (kernel kernel' : Kernel) : Prop := kernel'.outer = kernel.outer

namespace Rearranges

theorem refl (kernel : Kernel) : Rearranges kernel kernel := rfl

theorem trans (first : Rearranges kernel kernel') (second : Rearranges kernel' kernel'') :
    Rearranges kernel kernel'' := Eq.trans second first

theorem mem (rearranges : Rearranges kernel kernel') : kernel'.mem = kernel.mem := by
  have same := congrArg Kernel.mem rearranges
  exact same

theorem modify (kernel : Kernel) (p : Slot) (write : Pcb → Pcb) :
    Rearranges kernel (kernel.modify p write) := rfl

theorem unlinked (same : kernel'.unlinked = kernel.unlinked) : Rearranges kernel kernel' := by
  have outer := congrArg Kernel.outer same
  exact outer

theorem ready (kernel : Kernel) (p : Slot) : Rearranges kernel (ready kernel p) := by
  simp only [XerosKernel.ready]
  split
  · exact rfl
  · exact rfl

theorem reschedule (popped : reschedule kernel = some d) : Rearranges kernel d.kernel :=
  unlinked (reschedule_unlinked popped)

theorem sleep {len : Word} (slept : sleep kernel p len = some kernel') :
    Rearranges kernel kernel' := by
  rcases sleep_cases slept with rfl | same
  · exact ready kernel p
  · have moved : Rearranges kernel (asleep kernel p) := rfl
    exact moved.trans (unlinked same)

theorem tickLoop {fuel : Nat} (looped : tickLoop fuel kernel = some kernel') :
    Rearranges kernel kernel' := by
  induction fuel generalizing kernel with
  | zero => cases looped
  | succ fuel ih =>
      unfold XerosKernel.tickLoop at looped
      split at looped
      · cases looped
        rfl
      · split at looped
        · cases looped
          rfl
        · have rest := ih looped
          exact Eq.trans rest (ready _ _)

theorem tick (ticked : tick kernel = some kernel') : Rearranges kernel kernel' := by
  unfold XerosKernel.tick at ticked
  split at ticked
  · cases ticked
    exact refl kernel
  · have counted := tickLoop ticked
    exact counted

theorem waking : Waking Rearranges where
  refl := refl
  trans := trans
  ready := ready
  answer := fun _ _ _ => rfl
  forget := fun _ _ => rfl
  unlinked := unlinked

theorem heap (rearranges : Rearranges kernel kernel') : kernel'.heap = kernel.heap := by
  have same := congrArg Kernel.heap rearranges
  exact same

end Rearranges

theorem signal_heap (env : Env) (kernel : Kernel) (p : Slot) (signum : Fin MAX_SIG) :
    (signal env kernel p signum).2.heap = kernel.heap := by
  rcases signal_cases env kernel p signum with ⟨_, same⟩ | ⟨_, ⟨_, same⟩ | ⟨_, same⟩⟩ <;> rw [same]
  · rfl
  · rfl

theorem kill_heap {pid signum : Word}
    (killed : kill env kernel pid signum = some (value, kernel')) :
    kernel'.heap = kernel.heap := by
  cases reached : killTarget kernel pid signum with
  | none =>
      obtain ⟨value', dropped⟩ := kill_dropped env reached
      rw [dropped] at killed
      cases killed
      rfl
  | some target =>
      obtain ⟨_, woken, wakes, parts⟩ := kill_parts reached killed
      have first := Rearranges.waking.killWake wakes
      rcases parts with ⟨_, result⟩ | ⟨_, unlinked, unlinks, result⟩
      · rw [result, signal_heap]
        exact first.heap
      · have released := (first.trans (Rearranges.waking.killUnlink unlinks)).trans
          (Rearranges.waking.wakeWaiters unlinked target)
        rw [result, signal_heap]
        exact released.heap

/-! The devices. -/

theorem openFirst_heap (kernel : Kernel) (p : Slot) (device : Device) :
    (openFirst kernel p device).2.heap = kernel.heap := by
  unfold openFirst
  split
  · rfl
  · rfl

theorem diOpen_heap (kernel : Kernel) (p : Slot) (device_no : Word) :
    (diOpen kernel p device_no).2.heap = kernel.heap := by
  unfold diOpen
  split
  · rfl
  · rename_i device _
    cases device with
    | zero => exact openFirst_heap kernel p .zero
    | rand => exact openFirst_heap kernel p .rand
    | kbd =>
        have opened := openFirst_heap kernel p .kbd
        simp only [Device.dvopen, kbdOpen]
        split
        · exact opened
        · exact opened

theorem dvread_heap {device : Device}
    (answer : device.dvread env kernel p fd buff bufflen = some (value, kernel')) :
    kernel'.heap = kernel.heap := by
  cases device with
  | zero =>
      cases answer
      rfl
  | rand =>
      obtain ⟨⟨mem, seed, rfl⟩, _⟩ := randRead_spec answer
      rfl
  | kbd =>
      rw [Device.dvread, kbdRead_eq, Option.some.injEq] at answer
      split at answer
      · cases answer
        rfl
      · split at answer
        · cases answer
          exact ready_heap _ _
        · split at answer
          · cases answer
            rfl
          · cases answer
            rfl

theorem dvioctl_heap (env : Env) (kernel : Kernel) (device : Device) (command arg3 : Word) :
    (device.dvioctl env kernel command arg3).2.heap = kernel.heap := by
  obtain ⟨eof, echo, seed, same⟩ := dvioctl_spec env kernel device command arg3
  rw [same]

theorem kbdHandler_heap (kernel : Kernel) (p : Slot) (ports : Ports) :
    (kbdHandler kernel p ports).heap = kernel.heap := by
  obtain ⟨kbd, same | closed⟩ := kbdHandler_spec kernel p ports
  · rw [same]
  · rw [closed]
    rfl

/-! Requests. -/

theorem getCPUtimes_heap (env : Env) (kernel : Kernel) (p : Slot) (ps : Word) :
    (getCPUtimes env kernel p ps).2.heap = kernel.heap := by
  obtain ⟨mem, same⟩ := getCPUtimes_spec env kernel p ps
  rw [same]

theorem diClose_heap (closed : diClose kernel p fd = some (value, kernel')) :
    kernel'.heap = kernel.heap := by
  rcases diClose_calls closed with ⟨_, rfl⟩ | ⟨_, device, _, answer⟩
  · rfl
  · cases device <;> cases answer <;> rfl

theorem diWrite_heap {env : Env} (written : diWrite env kernel p fd buff bufflen =
    some (value, kernel')) : kernel'.heap = kernel.heap := by
  rcases diWrite_calls written with ⟨_, rfl⟩ | ⟨_, _, device, _, answer⟩
  · rfl
  · cases device <;> cases answer <;> rfl

theorem diRead_heap (read : diRead env kernel p fd buff bufflen = some (value, kernel')) :
    kernel'.heap = kernel.heap := by
  rcases diRead_calls read with ⟨_, rfl⟩ | ⟨_, _, device, _, answer⟩
  · rfl
  · exact dvread_heap answer

theorem diIoctl_heap {command arg3 : Word}
    (controlled : diIoctl env kernel p fd command arg3 = some (value, kernel')) :
    kernel'.heap = kernel.heap := by
  rcases diIoctl_calls controlled with ⟨_, rfl⟩ | ⟨_, device, _, answer⟩
  · rfl
  · have same := dvioctl_heap env kernel device command arg3
    rwa [answer] at same

theorem serve_heap (other : ∀ fp stack, request ≠ .create fp stack)
    (served : serve env kernel p ports request = some d) : d.kernel.heap = kernel.heap := by
  cases request with
  | create fp stack => exact absurd rfl (other fp stack)
  | yield => exact ((Rearranges.ready kernel p).trans (Rearranges.reschedule served)).heap
  | stop => exact ((Rearranges.modify kernel p _).trans (Rearranges.reschedule served)).heap
  | kill pid signum =>
      obtain ⟨⟨value, kernel'⟩, killed, rfl⟩ := Option.map_eq_some_iff.mp served
      have same := kill_heap killed
      exact same
  | sleep len =>
      obtain ⟨kernel', slept, popped⟩ := Option.bind_eq_some_iff.mp served
      exact ((Rearranges.sleep slept).trans (Rearranges.reschedule popped)).heap
  | timer =>
      obtain ⟨kernel', ticked, popped⟩ := Option.bind_eq_some_iff.mp served
      have counted := (Rearranges.tick ticked).trans (Rearranges.modify kernel' p fun pcb =>
        { pcb with cpuTime := pcb.cpuTime + 1 })
      exact (counted.trans ((Rearranges.ready _ p).trans (Rearranges.reschedule popped))).heap
  | sighandler signum handler =>
      rcases serve_sighandler served with ⟨_, rfl⟩ | ⟨_, rfl⟩
      · rfl
      · rfl
  | wait pid =>
      rcases serve_wait served with ⟨_, rfl⟩ | ⟨_, _, popped⟩
      · rfl
      · exact ((Rearranges.modify kernel p _).trans (Rearranges.reschedule popped)).heap
  | cputimes ps =>
      cases served
      exact getCPUtimes_heap env kernel p ps
  | openDevice device_no =>
      cases served
      exact diOpen_heap kernel p device_no
  | close fd =>
      obtain ⟨⟨value, kernel'⟩, closed, rfl⟩ := Option.map_eq_some_iff.mp served
      have same := diClose_heap closed
      exact same
  | read fd buff bufflen =>
      obtain ⟨⟨value, kernel'⟩, read, rest⟩ := Option.bind_eq_some_iff.mp served
      simp only at rest
      split at rest
      · exact (Rearranges.reschedule rest).heap.trans (diRead_heap read)
      · cases rest
        have same := diRead_heap read
        exact same
  | write fd buff bufflen =>
      obtain ⟨⟨value, kernel'⟩, written, rfl⟩ := Option.map_eq_some_iff.mp served
      have same := diWrite_heap written
      exact same
  | ioctl fd command arg3 =>
      obtain ⟨⟨value, kernel'⟩, controlled, rfl⟩ := Option.map_eq_some_iff.mp served
      have same := diIoctl_heap controlled
      exact same
  | keyboard =>
      cases served
      exact kbdHandler_heap kernel p ports
  | puts _ | getpid | sigreturn _ _ _ | bad _ =>
      cases served
      rfl

theorem entered_heap (d : Dispatcher) (trap : Trap) : (d.entered trap).heap = d.kernel.heap := by
  simp only [Dispatcher.entered, contextswitch]
  cases trap.trapNo <;> rfl

end XerosKernel
