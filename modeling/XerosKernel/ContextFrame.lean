import XerosKernel.Descriptors

/-!
Who changes the stack pointer and the signal level of a process. Within the kernel only the
delivery of a signal, `SYS_SIGRETURN` and the creation of a process do.
-/

namespace XerosKernel

def Pcb.context (pcb : Pcb) : Word × Word := (pcb.esp, pcb.currSigLvl)

def SameContexts (kernel kernel' : Kernel) : Prop :=
  ∀ i, (kernel'.proctab i).context = (kernel.proctab i).context

def Pcb.signalling (pcb : Pcb) : Pcb :=
  { esp := pcb.esp, currSigLvl := pcb.currSigLvl, sigmask := pcb.sigmask }

def SameSignalling (kernel kernel' : Kernel) : Prop :=
  ∀ i, (kernel'.proctab i).signalling = (kernel.proctab i).signalling

variable {env : Env} {kernel kernel' kernel'' : Kernel} {p : Slot} {ports : Ports}
  {request : Request} {d : Dispatcher}

namespace SameSignalling

theorem refl : SameSignalling kernel kernel := fun _ => rfl

theorem trans (first : SameSignalling kernel kernel') (second : SameSignalling kernel' kernel'') :
    SameSignalling kernel kernel'' := fun i => (second i).trans (first i)

theorem table (same : kernel'.proctab = kernel.proctab) : SameSignalling kernel kernel' :=
  fun i => by rw [same]

theorem modify (kernel : Kernel) (p : Slot) (change : Pcb → Pcb)
    (same : ∀ pcb, (change pcb).signalling = pcb.signalling) :
    SameSignalling kernel (kernel.modify p change) :=
  fun i => kernel.modify_same p change Pcb.signalling (same _) i

theorem moves (moves : Moves kernel kernel') : SameSignalling kernel kernel' := by
  intro i
  have personal := congrArg Pcb.signalling (moves.personal i)
  exact personal

theorem resume (kernel : Kernel) (p : Slot) (value : Word) :
    SameSignalling kernel (resume p (value, kernel)).kernel :=
  modify kernel p (fun pcb => { pcb with ret := value }) fun _ => rfl

theorem contexts (same : SameSignalling kernel kernel') : SameContexts kernel kernel' := by
  intro i
  have esp := congrArg Pcb.esp (same i)
  have level := congrArg Pcb.currSigLvl (same i)
  exact Prod.ext esp level

end SameSignalling

namespace SameContexts

theorem refl : SameContexts kernel kernel := fun _ => rfl

theorem moves (moves : Moves kernel kernel') : SameContexts kernel kernel' :=
  (SameSignalling.moves moves).contexts

theorem resume (kernel : Kernel) (p : Slot) (value : Word) :
    SameContexts kernel (resume p (value, kernel)).kernel :=
  (SameSignalling.resume kernel p value).contexts

end SameContexts

/-! The drivers. -/

def Pcb.undriven (pcb : Pcb) : Pcb :=
  { pcb with fdt := fun _ => {}, state := .stopped, next := none, prev := none }

def Driven (kernel kernel' : Kernel) : Prop :=
  ∀ i, (kernel'.proctab i).undriven = (kernel.proctab i).undriven

namespace Driven

theorem refl : Driven kernel kernel := fun _ => rfl

theorem trans (first : Driven kernel kernel') (second : Driven kernel' kernel'') :
    Driven kernel kernel'' := fun i => (second i).trans (first i)

theorem table (same : kernel'.proctab = kernel.proctab) : Driven kernel kernel' :=
  fun i => by rw [same]

theorem modify (kernel : Kernel) (p : Slot) (change : Pcb → Pcb)
    (same : ∀ pcb, (change pcb).undriven = pcb.undriven) : Driven kernel (kernel.modify p change) :=
  fun i => kernel.modify_same p change Pcb.undriven (same _) i

theorem ready (kernel : Kernel) (p : Slot) : Driven kernel (ready kernel p) := by
  intro i
  rw [ready_proctab]
  rfl

theorem same (driven : Driven kernel kernel') {β : Type} (field : Pcb → β)
    (kept : ∀ pcb : Pcb, field pcb.undriven = field pcb) (i : Slot) :
    field (kernel'.proctab i) = field (kernel.proctab i) := by
  rw [← kept, driven i, kept]

theorem signalling (driven : Driven kernel kernel') : SameSignalling kernel kernel' :=
  driven.same Pcb.signalling fun _ => rfl

end Driven

theorem writeFdt_driven (kernel : Kernel) (p : Slot) (fd : Fin MAX_FDT)
    (write : FdStruct → FdStruct) : Driven kernel (kernel.writeFdt p fd write) :=
  Driven.modify kernel p _ fun _ => rfl

theorem dvopen_driven (kernel : Kernel) (p : Slot) (device : Device) :
    Driven kernel (device.dvopen kernel p).2 := by
  have first : ∀ device, Driven kernel (openFirst kernel p device).2 := by
    intro device
    unfold openFirst
    split
    · exact Driven.refl
    · rename_i i _
      exact writeFdt_driven kernel p i fun fdStruct =>
        { fdStruct with status := .opened, device := some device }
  cases device with
  | zero => exact first .zero
  | rand => exact first .rand
  | kbd =>
      simp only [Device.dvopen, kbdOpen]
      split
      · exact first .kbd
      · exact (first .kbd).trans (Driven.table rfl)

theorem closeDescriptor_driven (kernel : Kernel) (p : Slot) (fd : Word) :
    Driven kernel (closeDescriptor kernel p fd) :=
  writeFdt_driven kernel p (fdIndex fd) fun fdStruct =>
    { fdStruct with device := none, status := .close }

theorem dvclose_driven (kernel : Kernel) (p : Slot) (device : Device) (fd : Word) :
    Driven kernel (device.dvclose kernel p fd).2 := by
  cases device with
  | zero => exact closeDescriptor_driven kernel p fd
  | rand => exact closeDescriptor_driven kernel p fd
  | kbd => exact closeDescriptor_driven { kernel with
      kbd := { kernel.kbd with echo := true, irqEnabled := false } } p fd

theorem kbdRead_driven (kernel : Kernel) (p : Slot) (fd buff : Word) :
    Driven kernel (kbdRead kernel p fd buff).2 := by
  rw [kbdRead_eq]
  cases firstUnread kernel.kbd with
  | none => exact Driven.refl
  | some i =>
      simp only
      split
      · have closed := dvclose_driven (takeChar kernel buff i) p .kbd fd
        exact closed.trans (Driven.ready _ p)
      · split
        · exact Driven.refl
        · refine Driven.trans ?_ (Driven.modify _ p (fun pcb =>
            { pcb with state := .blocked }) fun _ => rfl)
          exact Driven.table rfl

theorem dvread_driven {device : Device} {fd buff bufflen value : Word}
    (answer : device.dvread env kernel p fd buff bufflen = some (value, kernel')) :
    Driven kernel kernel' := by
  cases device with
  | zero =>
      simp only [Device.dvread, zeroRead, Option.some.injEq, Prod.mk.injEq] at answer
      obtain ⟨_, rfl⟩ := answer
      exact writeFdt_driven { kernel with mem := memset kernel.mem buff 0 bufflen } p
        (fdIndex fd) fun fdStruct => { fdStruct with dataBuffer := 0 }
  | rand =>
      obtain ⟨⟨mem, seed, rfl⟩, _⟩ := randRead_spec answer
      exact Driven.table rfl
  | kbd =>
      simp only [Device.dvread, Option.some.injEq] at answer
      have same := kbdRead_driven kernel p fd buff
      rwa [answer] at same

theorem dvioctl_table (env : Env) (kernel : Kernel) (device : Device) (command arg3 : Word) :
    (device.dvioctl env kernel command arg3).2.proctab = kernel.proctab := by
  obtain ⟨eof, echo, seed, same⟩ := dvioctl_spec env kernel device command arg3
  rw [same]

theorem kbdHandler_driven (kernel : Kernel) (p : Slot) (ports : Ports) :
    Driven kernel (kbdHandler kernel p ports) := by
  obtain ⟨kbd, same | closed⟩ := kbdHandler_spec kernel p ports
  · rw [same]
    exact Driven.table rfl
  · rw [closed]
    refine Driven.trans ?_ (dvclose_driven _ p .kbd 0)
    exact Driven.table rfl

theorem diOpen_driven (kernel : Kernel) (p : Slot) (device_no : Word) :
    Driven kernel (diOpen kernel p device_no).2 := by
  unfold diOpen
  split
  · exact Driven.refl
  · exact dvopen_driven kernel p _

theorem diClose_driven {fd value : Word} (closed : diClose kernel p fd = some (value, kernel')) :
    Driven kernel kernel' := by
  rcases diClose_calls closed with ⟨_, rfl⟩ | ⟨_, device, _, answer⟩
  · exact Driven.refl
  · have same := dvclose_driven kernel p device fd
    rwa [answer] at same

theorem diRead_driven {fd buff bufflen value : Word}
    (read : diRead env kernel p fd buff bufflen = some (value, kernel')) :
    Driven kernel kernel' := by
  rcases diRead_calls read with ⟨_, rfl⟩ | ⟨_, _, device, _, answer⟩
  · exact Driven.refl
  · exact dvread_driven answer

theorem diWrite_driven {fd buff bufflen value : Word}
    (written : diWrite env kernel p fd buff bufflen = some (value, kernel')) :
    Driven kernel kernel' := by
  rcases diWrite_calls written with ⟨_, rfl⟩ | ⟨_, _, device, _, answer⟩
  · exact Driven.refl
  · have same : Driven kernel (device.dvwrite kernel p fd buff bufflen).2 := by
      cases device <;> exact Driven.table rfl
    rwa [answer] at same

theorem diIoctl_driven {fd command arg3 value : Word}
    (controlled : diIoctl env kernel p fd command arg3 = some (value, kernel')) :
    Driven kernel kernel' := by
  rcases diIoctl_calls controlled with ⟨_, rfl⟩ | ⟨_, device, _, answer⟩
  · exact Driven.refl
  · have same := Driven.table (dvioctl_table env kernel device command arg3)
    rwa [answer] at same

theorem getCPUtimes_table (env : Env) (kernel : Kernel) (p : Slot) (ps : Word) :
    (getCPUtimes env kernel p ps).2.proctab = kernel.proctab := by
  obtain ⟨mem, same⟩ := getCPUtimes_spec env kernel p ps
  rw [same]

/-! Requests. -/

def Request.KeepsContexts : Request → Prop
  | .create _ _ | .kill _ _ | .sigreturn _ _ _ => False
  | _ => True

theorem serve_signalling (keeps : request.KeepsContexts)
    (served : serve env kernel p ports request = some d) : SameSignalling kernel d.kernel := by
  cases request with
  | create | kill | sigreturn => exact keeps.elim
  | yield =>
      exact SameSignalling.moves ((ready_moves kernel p).trans (reschedule_moves served))
  | stop =>
      have stopped := SameSignalling.modify kernel p (fun pcb => { pcb with state := .stopped })
        fun _ => rfl
      exact stopped.trans (SameSignalling.moves (reschedule_moves served))
  | cputimes ps =>
      cases served
      exact (SameSignalling.table (getCPUtimes_table env kernel p ps)).trans
        (SameSignalling.resume _ p _)
  | puts str =>
      cases served
      exact SameSignalling.resume kernel p _
  | getpid =>
      cases served
      exact SameSignalling.resume kernel p _
  | sleep len =>
      obtain ⟨kernel', slept, popped⟩ := Option.bind_eq_some_iff.mp served
      exact SameSignalling.moves ((sleep_moves slept).trans (reschedule_moves popped))
  | timer =>
      obtain ⟨kernel', ticked, popped⟩ := Option.bind_eq_some_iff.mp served
      have counted := SameSignalling.modify kernel' p (fun pcb =>
        { pcb with cpuTime := pcb.cpuTime + 1 }) fun _ => rfl
      have moved := (ready_moves _ p).trans (reschedule_moves popped)
      exact ((SameSignalling.moves (tick_moves ticked)).trans counted).trans
        (SameSignalling.moves moved)
  | sighandler signum handler =>
      rcases serve_sighandler served with ⟨_, rfl⟩ | ⟨_, rfl⟩
      · exact SameSignalling.resume kernel p _
      · refine SameSignalling.trans ?_ (SameSignalling.resume _ p _)
        exact SameSignalling.modify kernel p _ fun _ => rfl
  | wait pid =>
      rcases serve_wait served with ⟨_, rfl⟩ | ⟨_, _, popped⟩
      · exact SameSignalling.resume kernel p _
      · have waits := SameSignalling.modify kernel p (fun pcb =>
          { pcb with state := .wait, waitpid := pid, ret := 0 }) fun _ => rfl
        exact waits.trans (SameSignalling.moves (reschedule_moves popped))
  | openDevice device_no =>
      cases served
      exact (diOpen_driven kernel p device_no).signalling.trans (SameSignalling.resume _ p _)
  | close fd =>
      obtain ⟨⟨value, kernel'⟩, closed, rfl⟩ := Option.map_eq_some_iff.mp served
      exact (diClose_driven closed).signalling.trans (SameSignalling.resume kernel' p value)
  | read fd buff bufflen =>
      obtain ⟨⟨value, kernel'⟩, read, rest⟩ := Option.bind_eq_some_iff.mp served
      have answered := (diRead_driven read).signalling
      simp only at rest
      split at rest
      · exact answered.trans (SameSignalling.moves (reschedule_moves rest))
      · cases rest
        exact answered.trans (SameSignalling.resume kernel' p value)
  | write fd buff bufflen =>
      obtain ⟨⟨value, kernel'⟩, written, rfl⟩ := Option.map_eq_some_iff.mp served
      exact (diWrite_driven written).signalling.trans (SameSignalling.resume kernel' p value)
  | ioctl fd command arg3 =>
      obtain ⟨⟨value, kernel'⟩, controlled, rfl⟩ := Option.map_eq_some_iff.mp served
      exact (diIoctl_driven controlled).signalling.trans (SameSignalling.resume kernel' p value)
  | keyboard =>
      cases served
      exact (kbdHandler_driven kernel p ports).signalling
  | bad r =>
      cases served
      exact SameSignalling.refl

theorem serve_contexts (keeps : request.KeepsContexts)
    (served : serve env kernel p ports request = some d) : SameContexts kernel d.kernel :=
  (serve_signalling keeps served).contexts

end XerosKernel
