import XerosKernel.KeyboardStream
import XerosKernel.QueueFrame

/-!
Who opens and closes descriptors. `Rewires` says once what a request does to the descriptor
tables and to the keyboard interrupt: nothing, an open of the caller's first closed
descriptor, or a close of one of the running process's own descriptors. Data buffers are
left out.
-/

namespace XerosKernel

def FdStruct.wiring (fdStruct : FdStruct) : FdStruct := { fdStruct with dataBuffer := 0 }

namespace Kernel

def descriptor (kernel : Kernel) (i : Slot) (fd : Fin MAX_FDT) : FdStruct :=
  ((kernel.proctab i).fdt fd).wiring

end Kernel

def Closes (env : Env) (kernel : Kernel) (p : Slot) (ports : Ports) (fd : Fin MAX_FDT) :
    Request → Prop
  | .close fd' => ¬ invalidFd kernel p fd' ∧ fdIndex fd' = fd
  | .read fd' buff _ => ReadsEof env kernel p fd' buff ∧ fdIndex fd' = fd
  | .keyboard => decoded kernel.kbd ports = some kernel.kbd.eof ∧ fd = 0
  | _ => False

instance (env : Env) (kernel : Kernel) (p : Slot) (ports : Ports) (fd : Fin MAX_FDT) :
    (request : Request) → Decidable (Closes env kernel p ports fd request)
  | .close _ => inferInstanceAs (Decidable (_ ∧ _))
  | .read _ _ _ => inferInstanceAs (Decidable (_ ∧ _))
  | .keyboard => inferInstanceAs (Decidable (_ ∧ _))
  | .create _ _ | .yield | .stop | .kill _ _ | .cputimes _ | .puts _ | .getpid | .sleep _
  | .timer | .sighandler _ _ | .sigreturn _ _ _ | .wait _ | .openDevice _ | .write _ _ _
  | .ioctl _ _ _ | .bad _ => isFalse id

def Writes (p : Slot) (fd : Fin MAX_FDT) (value : FdStruct) (kernel kernel' : Kernel) : Prop :=
  ∀ i j, kernel'.descriptor i j = if i = p ∧ j = fd then value else kernel.descriptor i j

structure Wired (kernel kernel' : Kernel) : Prop where
  descriptor : ∀ i fd, kernel'.descriptor i fd = kernel.descriptor i fd
  irq : kernel'.kbd.irqEnabled = kernel.kbd.irqEnabled

structure KeepsFdt (kernel kernel' : Kernel) : Prop where
  fdt : ∀ i, (kernel'.proctab i).fdt = (kernel.proctab i).fdt
  irq : kernel'.kbd.irqEnabled = kernel.kbd.irqEnabled

/-- What a request of `p` does to the descriptors and to the keyboard interrupt. -/
inductive Rewires (env : Env) (kernel : Kernel) (p : Slot) (ports : Ports) :
    Request → Kernel → Prop
  | same {request : Request} {kernel' : Kernel} (wired : Wired kernel kernel')
      (quiet : ∀ device_no, request ≠ .openDevice device_no := by simp) :
      Rewires env kernel p ports request kernel'
  | failed {device_no : Word} {kernel' : Kernel} (wired : Wired kernel kernel')
      (returned : (kernel'.proctab p).ret = -1) :
      Rewires env kernel p ports (.openDevice device_no) kernel'
  | opened {device_no : Word} {device : Device} {fd : Fin MAX_FDT} {kernel' : Kernel}
      (found : devtable.find? (fun device => device.dvnum = device_no) = some device)
      (free : (kernel.descriptor p fd).status = .close)
      (writes : Writes p fd { device := some device, status := .opened } kernel kernel')
      (irq : kernel'.kbd.irqEnabled = (kernel.kbd.irqEnabled || decide (device = .kbd)))
      (returned : (kernel'.proctab p).ret = BitVec.ofNat 32 fd) :
      Rewires env kernel p ports (.openDevice device_no) kernel'
  | closed {request : Request} {fd : Fin MAX_FDT} {kernel' : Kernel}
      (closes : Closes env kernel p ports fd request) (writes : Writes p fd {} kernel kernel')
      (irq : kernel'.kbd.irqEnabled = (kernel.kbd.irqEnabled &&
        decide (request ≠ .keyboard ∧ (kernel.descriptor p fd).device ≠ some .kbd))) :
      Rewires env kernel p ports request kernel'

variable {env : Env} {kernel kernel' kernel'' : Kernel} {p : Slot} {ports : Ports}
  {request : Request} {d d' : Dispatcher}

namespace KeepsFdt

theorem refl : KeepsFdt kernel kernel := ⟨fun _ => rfl, rfl⟩

theorem trans (first : KeepsFdt kernel kernel') (second : KeepsFdt kernel' kernel'') :
    KeepsFdt kernel kernel'' :=
  ⟨fun i => (second.fdt i).trans (first.fdt i), second.irq.trans first.irq⟩

theorem modify (kernel : Kernel) (p : Slot) (change : Pcb → Pcb)
    (same : ∀ pcb, (change pcb).fdt = pcb.fdt) : KeepsFdt kernel (kernel.modify p change) :=
  ⟨kernel.modify_same p change (·.fdt) (same _), rfl⟩

theorem outside (table : kernel'.proctab = kernel.proctab)
    (irq : kernel'.kbd.irqEnabled = kernel.kbd.irqEnabled) : KeepsFdt kernel kernel' :=
  ⟨fun _ => by rw [table], irq⟩

theorem moves (moves : Moves kernel kernel') : KeepsFdt kernel kernel' where
  fdt := by
    intro i
    have personal := congrArg (·.fdt) (moves.personal i)
    exact personal
  irq := by rw [moves.kbd]

theorem resume (kernel : Kernel) (p : Slot) (value : Word) :
    KeepsFdt kernel (resume p (value, kernel)).kernel :=
  modify kernel p (fun pcb => { pcb with ret := value }) fun _ => rfl

theorem wired (keeps : KeepsFdt kernel kernel') : Wired kernel kernel' :=
  ⟨fun i fd => by rw [Kernel.descriptor, keeps.fdt]; rfl, keeps.irq⟩

end KeepsFdt

namespace Wired

theorem refl : Wired kernel kernel := ⟨fun _ _ => rfl, rfl⟩

theorem trans (first : Wired kernel kernel') (second : Wired kernel' kernel'') :
    Wired kernel kernel'' :=
  ⟨fun i fd => (second.descriptor i fd).trans (first.descriptor i fd),
    second.irq.trans first.irq⟩

theorem outside (table : kernel'.proctab = kernel.proctab)
    (irq : kernel'.kbd.irqEnabled = kernel.kbd.irqEnabled) : Wired kernel kernel' :=
  (KeepsFdt.outside table irq).wired

end Wired

theorem Writes.trans {fd : Fin MAX_FDT} {value : FdStruct}
    (writes : Writes p fd value kernel kernel') (wired : Wired kernel' kernel'') :
    Writes p fd value kernel kernel'' :=
  fun i j => (wired.descriptor i j).trans (writes i j)

theorem Rewires.read_trans {fd buff bufflen : Word}
    (rewires : Rewires env kernel p ports (.read fd buff bufflen) kernel')
    (wired : Wired kernel' kernel'') :
    Rewires env kernel p ports (.read fd buff bufflen) kernel'' := by
  cases rewires with
  | same before _ => exact .same (before.trans wired)
  | closed closes writes irq => exact .closed closes (writes.trans wired) (wired.irq.trans irq)

/-! The drivers. -/

theorem writeFdt_writes (kernel : Kernel) (p : Slot) (fd : Fin MAX_FDT)
    (write : FdStruct → FdStruct) :
    Writes p fd (write ((kernel.proctab p).fdt fd)).wiring kernel (kernel.writeFdt p fd write) := by
  intro i j
  by_cases isP : i = p
  · subst isP
    by_cases isFd : j = fd
    · subst isFd
      simp [Kernel.descriptor, Kernel.writeFdt]
    · simp [Kernel.descriptor, Kernel.writeFdt, isFd]
  · simp [Kernel.descriptor, Kernel.writeFdt, isP]

theorem closeDescriptor_writes (kernel : Kernel) (p : Slot) (fd : Word) :
    Writes p (fdIndex fd) {} kernel (closeDescriptor kernel p fd) :=
  writeFdt_writes kernel p (fdIndex fd) _

theorem kbdClose_writes (kernel : Kernel) (p : Slot) (fd : Word) :
    Writes p (fdIndex fd) {} kernel (kbdClose kernel p fd).2 :=
  closeDescriptor_writes { kernel with
    kbd := { kernel.kbd with echo := true, irqEnabled := false } } p fd

def Opens (p : Slot) (device : Device) (value : Word) (kernel kernel' : Kernel) : Prop :=
  (value = -1 ∧ Wired kernel kernel') ∨
    ∃ fd : Fin MAX_FDT, value = BitVec.ofNat 32 fd ∧ (kernel.descriptor p fd).status = .close ∧
      Writes p fd { device := some device, status := .opened } kernel kernel' ∧
      kernel'.kbd.irqEnabled = (kernel.kbd.irqEnabled || decide (device = .kbd))

theorem openFirst_cases (kernel : Kernel) (p : Slot) (device : Device) :
    ((openFirst kernel p device).1 = -1 ∧ (openFirst kernel p device).2 = kernel) ∨
    ∃ fd : Fin MAX_FDT, (openFirst kernel p device).1 = BitVec.ofNat 32 fd ∧
      (kernel.descriptor p fd).status = .close ∧
      Writes p fd { device := some device, status := .opened } kernel
        (openFirst kernel p device).2 ∧
      (openFirst kernel p device).2.kbd = kernel.kbd := by
  unfold openFirst
  split
  · exact Or.inl ⟨rfl, rfl⟩
  · rename_i fd found
    have free : ((kernel.proctab p).fdt fd).status = .close := by
      simpa using List.find?_some found
    refine Or.inr ⟨fd, rfl, free, ?_, rfl⟩
    exact writeFdt_writes kernel p fd fun fdStruct =>
      { fdStruct with status := .opened, device := some device }

theorem openFirst_opens (kernel : Kernel) (p : Slot) {device : Device} (other : device ≠ .kbd) :
    Opens p device (openFirst kernel p device).1 kernel (openFirst kernel p device).2 := by
  rcases openFirst_cases kernel p device with ⟨failed, same⟩ | ⟨fd, value, free, writes, kbd⟩
  · rw [same]
    exact Or.inl ⟨failed, Wired.refl⟩
  · exact Or.inr ⟨fd, value, free, writes, by simp [kbd, other]⟩

theorem kbdOpen_opens (kernel : Kernel) (p : Slot) :
    Opens p .kbd (kbdOpen kernel p).1 kernel (kbdOpen kernel p).2 := by
  simp only [kbdOpen]
  rcases openFirst_cases kernel p .kbd with ⟨failed, same⟩ | ⟨fd, value, free, writes, kbd⟩
  · rw [if_pos failed, same]
    exact Or.inl ⟨failed, Wired.refl⟩
  · have success : ∀ fd : Fin MAX_FDT, BitVec.ofNat 32 fd ≠ (-1 : Word) := by decide
    rw [if_neg (by rw [value]; exact success fd)]
    exact Or.inr ⟨fd, value, free, writes, by simp⟩

theorem dvopen_opens (kernel : Kernel) (p : Slot) (device : Device) :
    Opens p device (device.dvopen kernel p).1 kernel (device.dvopen kernel p).2 := by
  cases device with
  | zero => exact openFirst_opens kernel p (by simp)
  | rand => exact openFirst_opens kernel p (by simp)
  | kbd => exact kbdOpen_opens kernel p

theorem dvclose_writes (kernel : Kernel) (p : Slot) (device : Device) (fd : Word) :
    Writes p (fdIndex fd) {} kernel (device.dvclose kernel p fd).2 ∧
      (device.dvclose kernel p fd).2.kbd.irqEnabled =
        (kernel.kbd.irqEnabled && decide (device ≠ .kbd)) := by
  have kept (kernel : Kernel) : (closeDescriptor kernel p fd).kbd = kernel.kbd := rfl
  cases device with
  | zero => exact ⟨closeDescriptor_writes kernel p fd, by simp [Device.dvclose, zeroClose, kept]⟩
  | rand => exact ⟨closeDescriptor_writes kernel p fd, by simp [Device.dvclose, randClose, kept]⟩
  | kbd => exact ⟨kbdClose_writes kernel p fd, by simp [Device.dvclose, kbdClose, kept]⟩

theorem dvwrite_keepsFdt (kernel : Kernel) (p : Slot) (device : Device) (fd buff bufflen : Word) :
    KeepsFdt kernel (device.dvwrite kernel p fd buff bufflen).2 := by
  cases device <;> exact KeepsFdt.outside rfl rfl

theorem dvioctl_keepsFdt (env : Env) (kernel : Kernel) (device : Device) (command arg3 : Word) :
    KeepsFdt kernel (device.dvioctl env kernel command arg3).2 := by
  obtain ⟨eof, echo, seed, same⟩ := dvioctl_spec env kernel device command arg3
  rw [same]
  exact KeepsFdt.outside rfl rfl

/-! Reading. -/

theorem randRead_keepsFdt {buff bufflen value : Word}
    (answer : randRead env kernel buff bufflen = some (value, kernel')) :
    KeepsFdt kernel kernel' := by
  obtain ⟨⟨mem, seed, rfl⟩, _⟩ := randRead_spec answer
  exact KeepsFdt.outside rfl rfl

theorem kbdRead_rewires (kernel : Kernel) (p : Slot) (fd buff : Word) :
    Wired kernel (kbdRead kernel p fd buff).2 ∨
    (atEof kernel.kbd ∧ Writes p (fdIndex fd) {} kernel (kbdRead kernel p fd buff).2 ∧
      (kbdRead kernel p fd buff).2.kbd.irqEnabled = false) := by
  rw [kbdRead_eq]
  cases found : firstUnread kernel.kbd with
  | none => exact Or.inl Wired.refl
  | some i =>
      simp only
      split
      · rename_i eof
        refine Or.inr ⟨⟨i, found, eof⟩, ?_, ?_⟩
        · have closed := kbdClose_writes (takeChar kernel buff i) p fd
          exact Writes.trans closed (KeepsFdt.moves (ready_moves _ p)).wired
        · rw [ready_kbd]
          rfl
      · split
        · exact Or.inl Wired.refl
        · refine Or.inl (KeepsFdt.trans ?_ (KeepsFdt.modify _ p (fun pcb =>
            { pcb with state := .blocked }) fun _ => rfl)).wired
          exact KeepsFdt.outside rfl rfl

theorem dvread_rewires {device : Device} {fd buff bufflen value : Word}
    (answer : device.dvread env kernel p fd buff bufflen = some (value, kernel')) :
    Wired kernel kernel' ∨ (device = .kbd ∧ atEof kernel.kbd ∧
      Writes p (fdIndex fd) {} kernel kernel' ∧ kernel'.kbd.irqEnabled = false) := by
  cases device with
  | zero =>
      simp only [Device.dvread, zeroRead, Option.some.injEq, Prod.mk.injEq] at answer
      obtain ⟨_, rfl⟩ := answer
      refine Or.inl ⟨fun i j => ?_, rfl⟩
      rw [writeFdt_writes _ p (fdIndex fd) _ i j]
      split
      · rename_i isFd
        obtain ⟨rfl, rfl⟩ := isFd
        rfl
      · rfl
  | rand => exact Or.inl (randRead_keepsFdt answer).wired
  | kbd =>
      simp only [Device.dvread, Option.some.injEq] at answer
      have cases := kbdRead_rewires kernel p fd buff
      rw [answer] at cases
      exact cases.imp id fun closed => ⟨rfl, closed⟩

/-! The device independent calls. -/

theorem diOpen_rewires (env : Env) (kernel : Kernel) (p : Slot) (ports : Ports)
    (device_no : Word) : Rewires env kernel p ports (.openDevice device_no)
      (resume p (diOpen kernel p device_no)).kernel := by
  unfold diOpen
  split
  · exact .failed (KeepsFdt.resume kernel p (-1)).wired (by simp [resume])
  · rename_i device found
    have resumed :=
      (KeepsFdt.resume (device.dvopen kernel p).2 p (device.dvopen kernel p).1).wired
    rcases dvopen_opens kernel p device with ⟨value, wired⟩ | ⟨fd, value, free, writes, irq⟩
    · exact .failed (wired.trans resumed) (by simpa [resume] using value)
    · exact .opened found free (writes.trans resumed) (resumed.irq.trans irq)
        (by simpa [resume] using value)

theorem diClose_rewires {fd value : Word} (closed : diClose kernel p fd = some (value, kernel')) :
    Rewires env kernel p ports (.close fd) (resume p (value, kernel')).kernel := by
  have wired := (KeepsFdt.resume kernel' p value).wired
  rcases diClose_calls closed with ⟨_, rfl⟩ | ⟨valid, device, opened, answer⟩
  · exact .same wired
  · have kind : (kernel.descriptor p (fdIndex fd)).device = some device := opened
    obtain ⟨writes, irq⟩ := dvclose_writes kernel p device fd
    rw [answer] at writes irq
    exact .closed ⟨valid, rfl⟩ (writes.trans wired)
      (wired.irq.trans (irq.trans (by simp [kind])))

theorem diRead_rewires {fd buff bufflen value : Word}
    (answer : diRead env kernel p fd buff bufflen = some (value, kernel')) :
    Rewires env kernel p ports (.read fd buff bufflen) kernel' := by
  rcases diRead_calls answer with ⟨_, rfl⟩ | ⟨validFd, validBuffer, device, opened, read⟩
  · exact .same Wired.refl
  · rcases dvread_rewires read with wired | ⟨rfl, eof, writes, irq⟩
    · exact .same wired
    · have kind : (kernel.descriptor p (fdIndex fd)).device = some .kbd := opened
      exact .closed ⟨⟨validFd, validBuffer, opened, eof⟩, rfl⟩ writes
        (irq.trans (by simp [kind]))

theorem diWrite_keepsFdt {fd buff bufflen value : Word}
    (written : diWrite env kernel p fd buff bufflen = some (value, kernel')) :
    KeepsFdt kernel kernel' := by
  rcases diWrite_calls written with ⟨_, rfl⟩ | ⟨_, _, device, _, answer⟩
  · exact KeepsFdt.refl
  · simpa [answer] using dvwrite_keepsFdt kernel p device fd buff bufflen

theorem diIoctl_keepsFdt {fd command arg3 value : Word}
    (controlled : diIoctl env kernel p fd command arg3 = some (value, kernel')) :
    KeepsFdt kernel kernel' := by
  rcases diIoctl_calls controlled with ⟨_, rfl⟩ | ⟨_, device, _, answer⟩
  · exact KeepsFdt.refl
  · simpa [answer] using dvioctl_keepsFdt env kernel device command arg3

theorem kbdHandler_rewires (env : Env) (kernel : Kernel) (p : Slot) (ports : Ports) :
    Rewires env kernel p ports .keyboard (kbdHandler kernel p ports) := by
  by_cases data : ports.port64 &&& 0x01 ≠ 0
  · have ascii : decoded kernel.kbd ports = some (kbtoa kernel.kbd.state ports.port60).1 :=
      if_pos data
    rw [kbdHandler, if_pos data]
    simp only
    split
    · rename_i eof
      have writes := kbdClose_writes { kernel with
        kbd := { kernel.kbd with
          state := (kbtoa kernel.kbd.state ports.port60).2
          kbdbuff := fillHole kernel.kbd.kbdbuff (kernel.kbd.eof.truncate 8) } } p 0
      refine .closed ⟨by rw [ascii, eof], rfl⟩ writes ?_
      simp
      rfl
    · split <;> exact .same (Wired.outside rfl rfl)
  · rw [kbdHandler, if_neg data]
    exact .same Wired.refl

/-! The dispatcher. -/

theorem contextswitch_keepsFdt (kernel : Kernel) (p : Slot) (trap : Trap) :
    KeepsFdt kernel (contextswitch kernel p trap).1 := by
  have stored : KeepsFdt kernel { kernel with mem := trap.mem } := KeepsFdt.outside rfl rfl
  have switched := stored.trans
    (KeepsFdt.modify { kernel with mem := trap.mem } p (fun pcb => { pcb with esp := trap.esp })
      fun _ => rfl)
  simp only [contextswitch]
  cases trap.trapNo with
  | timer => exact switched.trans (KeepsFdt.modify _ p (fun pcb => { pcb with ret := trap.eax })
      fun _ => rfl)
  | keyboard => exact switched.trans (KeepsFdt.modify _ p (fun pcb => { pcb with ret := trap.eax })
      fun _ => rfl)
  | kernel => exact switched.trans (KeepsFdt.modify _ p (fun pcb => { pcb with args := trap.edx })
      fun _ => rfl)

theorem pushFrame_keepsFdt (env : Env) (kernel : Kernel) (p : Slot) (signum : Fin MAX_SIG) :
    KeepsFdt kernel (pushFrame env kernel p signum) where
  fdt := by
    intro i
    by_cases isP : i = p <;> simp [pushFrame, isP]
  irq := rfl

theorem posted_keepsFdt (kernel : Kernel) (p : Slot) (signum : Fin MAX_SIG) :
    KeepsFdt kernel (posted kernel p signum) :=
  (KeepsFdt.modify kernel p (fun pcb => { pcb with sigmask := pcb.sigmask ||| signalMask signum })
    fun _ => rfl).trans (KeepsFdt.outside rfl rfl)

theorem signal_keepsFdt (env : Env) (kernel : Kernel) (p : Slot) (signum : Fin MAX_SIG) :
    KeepsFdt kernel (signal env kernel p signum).2 := by
  have accepted := posted_keepsFdt kernel p signum
  rcases signal_cases env kernel p signum with ⟨_, same⟩ | ⟨_, ⟨_, same⟩ | ⟨_, same⟩⟩ <;> rw [same]
  · exact KeepsFdt.refl
  · exact accepted.trans (pushFrame_keepsFdt env _ p signum)
  · exact accepted

theorem kill_keepsFdt {pid signum value : Word}
    (killed : kill env kernel pid signum = some (value, kernel')) : KeepsFdt kernel kernel' := by
  rcases kill_cases killed with ⟨_, rfl⟩ | ⟨target, woken, _, moves, rfl⟩
  · exact KeepsFdt.refl
  · exact (KeepsFdt.moves moves).trans (signal_keepsFdt env woken target _)

theorem create_keepsFdt {fp stackSize value : Word}
    (created : create env kernel fp stackSize = some (value, kernel')) :
    KeepsFdt kernel kernel' := by
  simp only [create] at created
  split at created
  · cases created
    exact KeepsFdt.outside rfl rfl
  · rename_i i found
    split at created
    · cases created
    · split at created
      · cases created
        exact KeepsFdt.outside rfl rfl
      · cases created
        refine KeepsFdt.trans ?_ (KeepsFdt.moves (ready_moves _ i))
        refine KeepsFdt.trans ?_ (KeepsFdt.modify _ i _ fun _ => rfl)
        exact KeepsFdt.outside rfl rfl

theorem getCPUtimes_keepsFdt (env : Env) (kernel : Kernel) (p : Slot) (ps : Word) :
    KeepsFdt kernel (getCPUtimes env kernel p ps).2 := by
  obtain ⟨mem, same⟩ := getCPUtimes_spec env kernel p ps
  rw [same]
  exact KeepsFdt.outside rfl rfl

def Request.LeavesDevices : Request → Prop
  | .openDevice _ | .close _ | .read _ _ _ | .write _ _ _ | .ioctl _ _ _ | .keyboard => False
  | _ => True

theorem serve_keepsFdt (leaves : request.LeavesDevices)
    (served : serve env kernel p ports request = some d) : KeepsFdt kernel d.kernel := by
  cases request with
  | openDevice | close | read | write | ioctl | keyboard => exact leaves.elim
  | create fp stack =>
      obtain ⟨⟨value, kernel'⟩, created, rfl⟩ := Option.map_eq_some_iff.mp served
      exact (create_keepsFdt created).trans (KeepsFdt.resume kernel' p value)
  | yield =>
      exact KeepsFdt.moves ((ready_moves kernel p).trans (reschedule_moves served))
  | stop =>
      have stopped := KeepsFdt.modify kernel p (fun pcb => { pcb with state := .stopped })
        fun _ => rfl
      exact stopped.trans (KeepsFdt.moves (reschedule_moves served))
  | kill pid signum =>
      obtain ⟨⟨value, kernel'⟩, killed, rfl⟩ := Option.map_eq_some_iff.mp served
      exact (kill_keepsFdt killed).trans (KeepsFdt.resume kernel' p value)
  | cputimes ps =>
      cases served
      exact (getCPUtimes_keepsFdt env kernel p ps).trans (KeepsFdt.resume _ p _)
  | puts str =>
      cases served
      exact KeepsFdt.resume kernel p _
  | getpid =>
      cases served
      exact KeepsFdt.resume kernel p _
  | sleep len =>
      obtain ⟨kernel', slept, popped⟩ := Option.bind_eq_some_iff.mp served
      exact KeepsFdt.moves ((sleep_moves slept).trans (reschedule_moves popped))
  | timer =>
      obtain ⟨kernel', ticked, popped⟩ := Option.bind_eq_some_iff.mp served
      have counted := KeepsFdt.modify kernel' p (fun pcb =>
        { pcb with cpuTime := pcb.cpuTime + 1 }) fun _ => rfl
      have moved := (ready_moves _ p).trans (reschedule_moves popped)
      exact ((KeepsFdt.moves (tick_moves ticked)).trans counted).trans (KeepsFdt.moves moved)
  | sighandler signum handler =>
      rcases serve_sighandler served with ⟨_, rfl⟩ | ⟨_, rfl⟩
      · exact KeepsFdt.resume kernel p _
      · refine KeepsFdt.trans ?_ (KeepsFdt.resume _ p _)
        exact KeepsFdt.modify kernel p _ fun _ => rfl
  | sigreturn old_sp old_ret sigLvl =>
      cases served
      refine KeepsFdt.trans ?_ (KeepsFdt.resume _ p _)
      exact KeepsFdt.modify kernel p _ fun _ => rfl
  | wait pid =>
      rcases serve_wait served with ⟨_, rfl⟩ | ⟨_, _, popped⟩
      · exact KeepsFdt.resume kernel p _
      · have waits := KeepsFdt.modify kernel p (fun pcb =>
          { pcb with state := .wait, waitpid := pid, ret := 0 }) fun _ => rfl
        exact waits.trans (KeepsFdt.moves (reschedule_moves popped))
  | bad r =>
      cases served
      exact KeepsFdt.refl

theorem serve_rewires (served : serve env kernel p ports request = some d) :
    Rewires env kernel p ports request d.kernel := by
  cases request with
  | openDevice device_no =>
      cases served
      exact diOpen_rewires env kernel p ports device_no
  | close fd =>
      obtain ⟨⟨value, kernel'⟩, closed, rfl⟩ := Option.map_eq_some_iff.mp served
      exact diClose_rewires closed
  | read fd buff bufflen =>
      obtain ⟨⟨value, kernel'⟩, read, rest⟩ := Option.bind_eq_some_iff.mp served
      have answered : Rewires env kernel p ports (.read fd buff bufflen) kernel' :=
        diRead_rewires read
      simp only at rest
      split at rest
      · exact answered.read_trans (KeepsFdt.moves (reschedule_moves rest)).wired
      · cases rest
        exact answered.read_trans (KeepsFdt.resume kernel' p value).wired
  | write fd buff bufflen =>
      obtain ⟨⟨value, kernel'⟩, written, rfl⟩ := Option.map_eq_some_iff.mp served
      exact .same ((diWrite_keepsFdt written).trans (KeepsFdt.resume kernel' p value)).wired
  | ioctl fd command arg3 =>
      obtain ⟨⟨value, kernel'⟩, controlled, rfl⟩ := Option.map_eq_some_iff.mp served
      exact .same ((diIoctl_keepsFdt controlled).trans (KeepsFdt.resume kernel' p value)).wired
  | keyboard =>
      cases served
      exact kbdHandler_rewires env kernel p ports
  | _ => exact .same (serve_keepsFdt (by trivial) served).wired

theorem boot_keepsFdt (booted : boot env = some d) :
    ∃ heap, KeepsFdt (dispatchinit env heap) d.kernel := by
  simp only [boot, Option.bind_eq_bind, Option.bind_eq_some_iff, Prod.exists] at booted
  obtain ⟨heap, _, _, idle, created, _, kernel, created', popped⟩ := booted
  exact ⟨heap, ((create_keepsFdt created).trans (create_keepsFdt created')).trans
    (KeepsFdt.moves (reschedule_moves popped))⟩

end XerosKernel
