import XerosKernel.DispatchCore

/-!
Requests that stay with their process. A device call, a new signal handler or the arrival
of a signal changes registers, signals and descriptors of one process; the queues, the
state of every process and all other entries of the table are left alone.
-/

namespace XerosKernel

def Pcb.scheduled (pcb : Pcb) : Pcb :=
  { pcb with
    esp := 0, ret := 0, args := 0, sigtab := fun _ => 0, sigmask := 0, currSigLvl := 0,
    fdt := fun _ => {} }

/-- `kernel'` differs from `kernel` only in registers, signals and descriptors of `p`, and in
what lies outside the table and the queues. -/
structure Touches (p : Slot) (kernel kernel' : Kernel) : Prop where
  head : kernel'.head = kernel.head
  tail : kernel'.tail = kernel.tail
  sleepQ : kernel'.sleepQ = kernel.sleepQ
  others : ∀ i ≠ p, kernel'.proctab i = kernel.proctab i
  own : (kernel'.proctab p).scheduled = (kernel.proctab p).scheduled

structure Private (p : Slot) (kernel kernel' : Kernel) : Prop extends
    Touches p kernel kernel' where
  accepted : kernel'.accepted = kernel.accepted
  pushed : kernel'.pushed = kernel.pushed

structure Outside (kernel kernel' : Kernel) : Prop where
  table : kernel'.proctab = kernel.proctab
  head : kernel'.head = kernel.head
  tail : kernel'.tail = kernel.tail
  sleepQ : kernel'.sleepQ = kernel.sleepQ
  accepted : kernel'.accepted = kernel.accepted
  pushed : kernel'.pushed = kernel.pushed

variable {kernel kernel' kernel'' : Kernel} {p : Slot}

namespace Touches

theorem trans (first : Touches p kernel kernel') (second : Touches p kernel' kernel'') :
    Touches p kernel kernel'' where
  head := second.head.trans first.head
  tail := second.tail.trans first.tail
  sleepQ := second.sleepQ.trans first.sleepQ
  others := fun i other => (second.others i other).trans (first.others i other)
  own := second.own.trans first.own

theorem modify (write : Pcb → Pcb) (same : ∀ pcb, (write pcb).scheduled = pcb.scheduled) :
    Touches p kernel (kernel.modify p write) where
  head := rfl
  tail := rfl
  sleepQ := rfl
  others := fun i other => by simp [other]
  own := by simpa using same _

theorem same (touches : Touches p kernel kernel') {β : Type} (field : Pcb → β)
    (shared : ∀ pcb, field pcb.scheduled = field pcb) (i : Slot) :
    field (kernel'.proctab i) = field (kernel.proctab i) := by
  by_cases isP : i = p
  · subst isP
    rw [← shared, touches.own, shared]
  · rw [touches.others i isP]

end Touches

namespace Private

theorem outside (outside : Outside kernel kernel') : Private p kernel kernel' :=
  ⟨⟨outside.head, outside.tail, outside.sleepQ, fun _ _ => by rw [outside.table],
    by rw [outside.table]⟩, outside.accepted, outside.pushed⟩

theorem refl : Private p kernel kernel := outside ⟨rfl, rfl, rfl, rfl, rfl, rfl⟩

theorem trans (first : Private p kernel kernel') (second : Private p kernel' kernel'') :
    Private p kernel kernel'' :=
  ⟨first.toTouches.trans second.toTouches, second.accepted.trans first.accepted,
    second.pushed.trans first.pushed⟩

theorem modify (write : Pcb → Pcb) (same : ∀ pcb, (write pcb).scheduled = pcb.scheduled) :
    Private p kernel (kernel.modify p write) :=
  ⟨Touches.modify write same, rfl, rfl⟩

end Private

/-! Devices. -/

theorem writeFdt_private (kernel : Kernel) (p : Slot) (fd : Fin MAX_FDT)
    (write : FdStruct → FdStruct) : Private p kernel (kernel.writeFdt p fd write) :=
  Private.modify _ fun _ => rfl

theorem openFirst_private (kernel : Kernel) (p : Slot) (device : Device) :
    Private p kernel (openFirst kernel p device).2 := by
  unfold openFirst
  split
  · exact Private.refl
  · rename_i i _
    exact writeFdt_private kernel p i fun fdStruct =>
      { fdStruct with status := .opened, device := some device }

theorem closeDescriptor_private (kernel : Kernel) (p : Slot) (fd : Word) :
    Private p kernel (closeDescriptor kernel p fd) :=
  writeFdt_private kernel p (fdIndex fd) fun fdStruct =>
    { fdStruct with device := none, status := .close }

theorem kbd_private (kernel : Kernel) (p : Slot) (kbd : Keyboard) :
    Private p kernel { kernel with kbd := kbd } :=
  Private.outside ⟨rfl, rfl, rfl, rfl, rfl, rfl⟩

theorem dvopen_private (kernel : Kernel) (p : Slot) (device : Device) :
    Private p kernel (device.dvopen kernel p).2 := by
  cases device with
  | zero => exact openFirst_private kernel p .zero
  | rand => exact openFirst_private kernel p .rand
  | kbd =>
      have opened := openFirst_private kernel p .kbd
      simp only [Device.dvopen, kbdOpen]
      split
      · exact opened
      · exact opened.trans (kbd_private _ p _)

theorem kbdClose_private (kernel : Kernel) (p : Slot) (fd : Word) :
    Private p kernel (kbdClose kernel p fd).2 :=
  (kbd_private kernel p { kernel.kbd with echo := true, irqEnabled := false }).trans
    (closeDescriptor_private _ p fd)

theorem dvclose_private (kernel : Kernel) (p : Slot) (device : Device) (fd : Word) :
    Private p kernel (device.dvclose kernel p fd).2 := by
  cases device with
  | zero => exact closeDescriptor_private kernel p fd
  | rand => exact closeDescriptor_private kernel p fd
  | kbd => exact kbdClose_private kernel p fd

theorem dvwrite_private (kernel : Kernel) (p : Slot) (device : Device) (fd buff bufflen : Word) :
    Private p kernel (device.dvwrite kernel p fd buff bufflen).2 := by
  cases device <;> exact Private.outside ⟨rfl, rfl, rfl, rfl, rfl, rfl⟩

theorem dvioctl_spec (env : Env) (kernel : Kernel) (device : Device) (command arg3 : Word) :
    ∃ eof echo seed, (device.dvioctl env kernel command arg3).2 =
      { kernel with kbd := { kernel.kbd with eof := eof, echo := echo }, seed := seed } := by
  cases device with
  | zero => exact ⟨kernel.kbd.eof, kernel.kbd.echo, kernel.seed, rfl⟩
  | rand =>
      simp only [Device.dvioctl, randIoctl]
      split
      · exact ⟨kernel.kbd.eof, kernel.kbd.echo, kernel.seed, rfl⟩
      · exact ⟨kernel.kbd.eof, kernel.kbd.echo, env.srand arg3, rfl⟩
  | kbd =>
      simp only [Device.dvioctl, kbdIoctl]
      split
      · exact ⟨arg3, kernel.kbd.echo, kernel.seed, rfl⟩
      · split
        · exact ⟨kernel.kbd.eof, false, kernel.seed, rfl⟩
        · split
          · exact ⟨kernel.kbd.eof, true, kernel.seed, rfl⟩
          · exact ⟨kernel.kbd.eof, kernel.kbd.echo, kernel.seed, rfl⟩

theorem dvioctl_private (env : Env) (kernel : Kernel) (p : Slot) (device : Device)
    (command arg3 : Word) : Private p kernel (device.dvioctl env kernel command arg3).2 := by
  obtain ⟨eof, echo, seed, same⟩ := dvioctl_spec env kernel device command arg3
  rw [same]
  exact Private.outside ⟨rfl, rfl, rfl, rfl, rfl, rfl⟩

/-! A call with a descriptor is refused and changes nothing, or it is the driver's. -/

theorem diClose_calls {fd value : Word} (closed : diClose kernel p fd = some (value, kernel')) :
    (value = -1 ∧ kernel' = kernel) ∨ ¬ invalidFd kernel p fd ∧
      ∃ device, deviceOf kernel p fd = some device ∧
        device.dvclose kernel p fd = (value, kernel') := by
  unfold diClose at closed
  split at closed
  · cases closed
    exact Or.inl ⟨rfl, rfl⟩
  · rename_i valid
    exact Or.inr ⟨valid, Option.map_eq_some_iff.mp closed⟩

theorem diRead_calls {env : Env} {fd buff bufflen value : Word}
    (read : diRead env kernel p fd buff bufflen = some (value, kernel')) :
    (value = -1 ∧ kernel' = kernel) ∨ ¬ invalidFd kernel p fd ∧ ¬ invalidBuffer env buff ∧
      ∃ device, deviceOf kernel p fd = some device ∧
        device.dvread env kernel p fd buff bufflen = some (value, kernel') := by
  unfold diRead at read
  split at read
  · cases read
    exact Or.inl ⟨rfl, rfl⟩
  · rename_i validFd
    split at read
    · cases read
      exact Or.inl ⟨rfl, rfl⟩
    · rename_i validBuffer
      exact Or.inr ⟨validFd, validBuffer, Option.bind_eq_some_iff.mp read⟩

theorem diWrite_calls {env : Env} {fd buff bufflen value : Word}
    (written : diWrite env kernel p fd buff bufflen = some (value, kernel')) :
    (value = -1 ∧ kernel' = kernel) ∨ ¬ invalidFd kernel p fd ∧ ¬ invalidBuffer env buff ∧
      ∃ device, deviceOf kernel p fd = some device ∧
        device.dvwrite kernel p fd buff bufflen = (value, kernel') := by
  unfold diWrite at written
  split at written
  · cases written
    exact Or.inl ⟨rfl, rfl⟩
  · rename_i validFd
    split at written
    · cases written
      exact Or.inl ⟨rfl, rfl⟩
    · rename_i validBuffer
      exact Or.inr ⟨validFd, validBuffer, Option.map_eq_some_iff.mp written⟩

theorem diIoctl_calls {env : Env} {fd command arg3 value : Word}
    (controlled : diIoctl env kernel p fd command arg3 = some (value, kernel')) :
    (value = -1 ∧ kernel' = kernel) ∨ ¬ invalidFd kernel p fd ∧
      ∃ device, deviceOf kernel p fd = some device ∧
        device.dvioctl env kernel command arg3 = (value, kernel') := by
  unfold diIoctl at controlled
  split at controlled
  · cases controlled
    exact Or.inl ⟨rfl, rfl⟩
  · rename_i valid
    exact Or.inr ⟨valid, Option.map_eq_some_iff.mp controlled⟩

theorem diOpen_private (kernel : Kernel) (p : Slot) (device_no : Word) :
    Private p kernel (diOpen kernel p device_no).2 := by
  unfold diOpen
  split
  · exact Private.refl
  · exact dvopen_private kernel p _

theorem diClose_private {fd value : Word} (closed : diClose kernel p fd = some (value, kernel')) :
    Private p kernel kernel' := by
  rcases diClose_calls closed with ⟨_, rfl⟩ | ⟨_, device, _, answer⟩
  · exact Private.refl
  · simpa [answer] using dvclose_private kernel p device fd

theorem diWrite_private {env : Env} {fd buff bufflen value : Word}
    (written : diWrite env kernel p fd buff bufflen = some (value, kernel')) :
    Private p kernel kernel' := by
  rcases diWrite_calls written with ⟨_, rfl⟩ | ⟨_, _, device, _, answer⟩
  · exact Private.refl
  · simpa [answer] using dvwrite_private kernel p device fd buff bufflen

theorem diIoctl_private {env : Env} {fd command arg3 value : Word}
    (controlled : diIoctl env kernel p fd command arg3 = some (value, kernel')) :
    Private p kernel kernel' := by
  rcases diIoctl_calls controlled with ⟨_, rfl⟩ | ⟨_, device, _, answer⟩
  · exact Private.refl
  · simpa [answer] using dvioctl_private env kernel p device command arg3

theorem kbdHandler_spec (kernel : Kernel) (p : Slot) (ports : Ports) :
    ∃ kbd, kbdHandler kernel p ports = { kernel with kbd := kbd } ∨
      kbdHandler kernel p ports = (kbdClose { kernel with kbd := kbd } p 0).2 := by
  simp only [kbdHandler]
  split
  · split
    · exact ⟨_, Or.inr rfl⟩
    · split
      · exact ⟨_, Or.inl rfl⟩
      · exact ⟨_, Or.inl rfl⟩
  · exact ⟨kernel.kbd, Or.inl rfl⟩

theorem kbdHandler_private (kernel : Kernel) (p : Slot) (ports : Ports) :
    Private p kernel (kbdHandler kernel p ports) := by
  obtain ⟨kbd, same | closed⟩ := kbdHandler_spec kernel p ports
  · rw [same]
    exact kbd_private kernel p kbd
  · rw [closed]
    exact (kbd_private kernel p kbd).trans (kbdClose_private _ p 0)

/-! Reading. -/

theorem randReadLoop_spec {env : Env} {buff bufflen : Word} {fuel : Nat} {i bytesRead : Word}
    {i' bytesRead' : Word} (word : bytesRead.toNat % 4 = 0)
    (looped : randReadLoop env buff bufflen fuel kernel i bytesRead =
      some (kernel', i', bytesRead')) :
    (∃ mem seed, kernel' = { kernel with mem := mem, seed := seed }) ∧
      bytesRead'.toNat % 4 = 0 ∧ i'.slt bufflen = false := by
  induction fuel generalizing kernel i bytesRead with
  | zero => simp [randReadLoop] at looped
  | succ fuel ih =>
      unfold randReadLoop at looped
      split at looped
      · obtain ⟨⟨mem, seed, rfl⟩, counted, full⟩ := ih (by bv_omega) looped
        exact ⟨⟨mem, seed, rfl⟩, counted, full⟩
      · rename_i full
        cases looped
        exact ⟨⟨_, _, rfl⟩, word, by simpa using full⟩

theorem randRead_spec {env : Env} {buff bufflen value : Word}
    (answer : randRead env kernel buff bufflen = some (value, kernel')) :
    (∃ mem seed, kernel' = { kernel with mem := mem, seed := seed }) ∧ value.toNat % 4 = 0 := by
  unfold randRead at answer
  split at answer
  · cases answer
  · rename_i looped
    obtain ⟨writes, counted, full⟩ := randReadLoop_spec (by decide) looped
    rw [if_neg (by simp [full])] at answer
    cases answer
    exact ⟨writes, counted⟩

theorem randRead_private {env : Env} {buff bufflen value : Word}
    (answer : randRead env kernel buff bufflen = some (value, kernel')) :
    Private p kernel kernel' ∧ value ≠ -3 := by
  obtain ⟨⟨mem, seed, rfl⟩, counted⟩ := randRead_spec answer
  refine ⟨Private.outside ⟨rfl, rfl, rfl, rfl, rfl, rfl⟩, ?_⟩
  rintro rfl
  revert counted
  decide

def firstUnread (kbd : Keyboard) : Option (Fin 4) :=
  (List.finRange 4).find? fun i => kbd.kbdbuff i ≠ 0

def atEof (kbd : Keyboard) : Prop :=
  ∃ i, firstUnread kbd = some i ∧ (kbd.kbdbuff i).signExtend 32 = kbd.eof

instance (kbd : Keyboard) : Decidable (atEof kbd) := inferInstanceAs (Decidable (∃ _, _))

theorem kbdReadLoop_eq (fd buff : Word) (slots : List (Fin 4)) :
    kbdReadLoop kernel p fd buff slots =
      match slots.find? fun i => kernel.kbd.kbdbuff i ≠ 0 with
      | none => (0, kernel)
      | some i => kbdReadLoop kernel p fd buff [i] := by
  induction slots with
  | nil => rfl
  | cons i rest ih =>
      by_cases empty : kernel.kbd.kbdbuff i = 0
      · simpa [kbdReadLoop, empty] using ih
      · simp only [List.find?_cons, ne_eq, empty, not_false_eq_true, decide_true, kbdReadLoop,
          if_false]

def takeChar (kernel : Kernel) (buff : Word) (i : Fin 4) : Kernel :=
  { kernel with
    mem := storeByte kernel.mem buff (kernel.kbd.kbdbuff i), kbd := kernel.kbd.clearSlot i }

theorem kbdRead_eq (kernel : Kernel) (p : Slot) (fd buff : Word) :
    kbdRead kernel p fd buff = match firstUnread kernel.kbd with
      | none => (-1, kernel)
      | some i =>
          if (kernel.kbd.kbdbuff i).signExtend 32 = kernel.kbd.eof then
            (1, ready (kbdClose (takeChar kernel buff i) p fd).2 p)
          else if kernel.kbd.kbdbuff i = 0x0D then (0, kernel)
          else (-3, { takeChar kernel buff i with
            mem := storeByte (takeChar kernel buff i).mem
              ((kernel.proctab p).fdt (fdIndex fd)).dataBuffer 0 }.modify p fun pcb =>
                { pcb with state := .blocked }) := by
  unfold kbdRead
  cases found : firstUnread kernel.kbd with
  | none =>
      have empty : ∀ i, kernel.kbd.kbdbuff i = 0 := by
        simpa [firstUnread] using found
      rw [if_pos empty]
  | some i =>
      have unread : kernel.kbd.kbdbuff i ≠ 0 := by simpa using List.find?_some found
      rw [if_neg fun empty => unread (empty i), kbdReadLoop_eq]
      change (match firstUnread kernel.kbd with
        | none => _
        | some i => kbdReadLoop kernel p fd buff [i]) = _
      have cleared : (kernel.kbd.clearSlot i).kbdbuff i = 0 := if_pos rfl
      rw [found]
      simp only [kbdReadLoop, if_neg unread, cleared, takeChar]

/-- The first character is neither the end of the input nor a return: a read of it blocks. -/
def BlocksReader (kbd : Keyboard) : Prop :=
  ∃ i, firstUnread kbd = some i ∧ (kbd.kbdbuff i).signExtend 32 ≠ kbd.eof ∧ kbd.kbdbuff i ≠ 0x0D

instance (kbd : Keyboard) : Decidable (BlocksReader kbd) := inferInstanceAs (Decidable (∃ _, _))

/-- A read of the keyboard ends in one of three ways: without blocking and without waking
anyone; at the end of the input, where it puts its caller on the ready queue; or with its
caller blocked. -/
theorem kbdRead_cases (kernel : Kernel) (p : Slot) (fd buff : Word) :
    (Private p kernel (kbdRead kernel p fd buff).2 ∧ (kbdRead kernel p fd buff).1 ≠ -3 ∧
      ¬ BlocksReader kernel.kbd) ∨
    (atEof kernel.kbd ∧ ∃ kernel', Private p kernel kernel' ∧
      kbdRead kernel p fd buff = (1, ready kernel' p)) ∨
    BlocksReader kernel.kbd ∧ ∃ kernel', Private p kernel kernel' ∧ kbdRead kernel p fd buff =
      (-3, kernel'.modify p fun pcb => { pcb with state := .blocked }) := by
  rw [kbdRead_eq]
  cases found : firstUnread kernel.kbd with
  | none =>
      refine Or.inl ⟨Private.refl, by simp, ?_⟩
      rintro ⟨i, isFirst, _⟩
      rw [found] at isFirst
      cases isFirst
  | some i =>
      simp only
      split
      · rename_i eof
        refine Or.inr (Or.inl ⟨⟨i, found, eof⟩, _, ?_, rfl⟩)
        refine Private.trans ?_ (kbdClose_private _ p fd)
        exact Private.outside ⟨rfl, rfl, rfl, rfl, rfl, rfl⟩
      · rename_i notEof
        split
        · rename_i isReturn
          refine Or.inl ⟨Private.refl, by simp, ?_⟩
          rintro ⟨j, isFirst, _, other⟩
          rw [found] at isFirst
          cases isFirst
          exact other isReturn
        · rename_i other
          refine Or.inr (Or.inr ⟨⟨i, found, notEof, other⟩, _, ?_, rfl⟩)
          exact Private.outside ⟨rfl, rfl, rfl, rfl, rfl, rfl⟩

def ReadsKbd (env : Env) (kernel : Kernel) (p : Slot) (fd buff : Word) : Prop :=
  ¬ invalidFd kernel p fd ∧ ¬ invalidBuffer env buff ∧ deviceOf kernel p fd = some .kbd

instance (env : Env) (kernel : Kernel) (p : Slot) (fd buff : Word) :
    Decidable (ReadsKbd env kernel p fd buff) := inferInstanceAs (Decidable (_ ∧ _))

def ReadsEof (env : Env) (kernel : Kernel) (p : Slot) (fd buff : Word) : Prop :=
  ¬ invalidFd kernel p fd ∧ ¬ invalidBuffer env buff ∧ deviceOf kernel p fd = some .kbd ∧
    atEof kernel.kbd

instance (env : Env) (kernel : Kernel) (p : Slot) (fd buff : Word) :
    Decidable (ReadsEof env kernel p fd buff) := inferInstanceAs (Decidable (_ ∧ _))

/-- A read of -3 bytes from the zero device, which returns the value that stands for a
blocked caller. -/
def ReadsMinusThree (env : Env) (kernel : Kernel) (p : Slot) (fd buff bufflen : Word) : Prop :=
  ¬ invalidFd kernel p fd ∧ ¬ invalidBuffer env buff ∧ deviceOf kernel p fd = some .zero ∧
    bufflen = -3

instance (env : Env) (kernel : Kernel) (p : Slot) (fd buff bufflen : Word) :
    Decidable (ReadsMinusThree env kernel p fd buff bufflen) :=
  inferInstanceAs (Decidable (_ ∧ _))

theorem diRead_outcome {env : Env} {fd buff bufflen value : Word}
    (answer : diRead env kernel p fd buff bufflen = some (value, kernel')) :
    (Private p kernel kernel' ∧ value ≠ -3 ∧
      ¬ (ReadsKbd env kernel p fd buff ∧ BlocksReader kernel.kbd) ∧
      ¬ ReadsMinusThree env kernel p fd buff bufflen) ∨
    (ReadsEof env kernel p fd buff ∧ value = 1 ∧
      ∃ read, Private p kernel read ∧ kernel' = ready read p) ∨
    ((ReadsKbd env kernel p fd buff ∧ BlocksReader kernel.kbd) ∧ value = -3 ∧
      ∃ read, Private p kernel read ∧
        kernel' = read.modify p fun pcb => { pcb with state := .blocked }) ∨
    (ReadsMinusThree env kernel p fd buff bufflen ∧ value = -3 ∧ Private p kernel kernel') := by
  unfold ReadsKbd ReadsMinusThree ReadsEof
  by_cases invalid : invalidFd kernel p fd ∨ invalidBuffer env buff
  · have refused : ¬ (¬ invalidFd kernel p fd ∧ ¬ invalidBuffer env buff) := by
      rw [← not_or]
      exact not_not.mpr invalid
    have unread : diRead env kernel p fd buff bufflen = some (-1, kernel) := by
      unfold diRead
      rcases invalid with badFd | badBuffer
      · exact if_pos badFd
      · rw [if_pos badBuffer, ite_self]
    rw [unread] at answer
    cases answer
    exact Or.inl ⟨Private.refl, by simp, fun reads => refused ⟨reads.1.1, reads.1.2.1⟩,
      fun short => refused ⟨short.1, short.2.1⟩⟩
  · obtain ⟨validFd, validBuffer⟩ := not_or.mp invalid
    rw [diRead, if_neg validFd, if_neg validBuffer] at answer
    obtain ⟨device, opened, read⟩ := Option.bind_eq_some_iff.mp answer
    cases device with
    | zero =>
        simp only [Device.dvread, zeroRead, Option.some.injEq, Prod.mk.injEq] at read
        obtain ⟨rfl, rfl⟩ := read
        have zeroed : Private p kernel
            { kernel with mem := memset kernel.mem buff 0 bufflen } :=
          Private.outside ⟨rfl, rfl, rfl, rfl, rfl, rfl⟩
        have local' := zeroed.trans (writeFdt_private _ p (fdIndex fd) fun fdStruct =>
          { fdStruct with dataBuffer := 0 })
        by_cases short : bufflen = -3
        · exact Or.inr (Or.inr (Or.inr
            ⟨⟨validFd, validBuffer, opened, short⟩, short, local'⟩))
        · exact Or.inl ⟨local', short, by simp [opened], fun minusThree => short minusThree.2.2.2⟩
    | rand =>
        have ⟨local', long⟩ := randRead_private (p := p) read
        exact Or.inl ⟨local', long, by simp [opened], by simp [opened]⟩
    | kbd =>
        simp only [Device.dvread, Option.some.injEq] at read
        have cases := kbdRead_cases kernel p fd buff
        rw [read] at cases
        rcases cases with ⟨local', notBlocked, goesOn⟩ | ⟨eof, middle, local', woken⟩ |
          ⟨blocks, middle, local', blocked⟩
        · exact Or.inl ⟨local', notBlocked, fun blocks => goesOn blocks.2, by simp [opened]⟩
        · cases woken
          exact Or.inr (Or.inl ⟨⟨validFd, validBuffer, opened, eof⟩, rfl, middle, local', rfl⟩)
        · cases blocked
          exact Or.inr (Or.inr (Or.inl
            ⟨⟨⟨validFd, validBuffer, opened⟩, blocks⟩, rfl, middle, local', rfl⟩))

theorem diRead_cases {env : Env} {fd buff bufflen value : Word}
    (answer : diRead env kernel p fd buff bufflen = some (value, kernel')) :
    (Private p kernel kernel' ∧ value ≠ -3) ∨
    (ReadsEof env kernel p fd buff ∧ value = 1 ∧
      ∃ read, Private p kernel read ∧ kernel' = ready read p) ∨
    (value = -3 ∧ ∃ read, Private p kernel read ∧
      kernel' = read.modify p fun pcb => { pcb with state := .blocked }) ∨
    (ReadsMinusThree env kernel p fd buff bufflen ∧ value = -3 ∧ Private p kernel kernel') := by
  rcases diRead_outcome answer with ⟨stays, running, _⟩ | eof | ⟨_, blocked⟩ | short
  · exact Or.inl ⟨stays, running⟩
  · exact Or.inr (Or.inl eof)
  · exact Or.inr (Or.inr (Or.inl blocked))
  · exact Or.inr (Or.inr (Or.inr short))

/-! The dispatcher's own writes. -/

theorem resume_private (kernel : Kernel) (p : Slot) (value : Word) :
    Private p kernel (resume p (value, kernel)).kernel :=
  Private.modify (fun pcb => { pcb with ret := value }) fun _ => rfl

theorem contextswitch_private (kernel : Kernel) (p : Slot) (trap : Trap) :
    Private p kernel (contextswitch kernel p trap).1 := by
  have stored : Private p kernel { kernel with mem := trap.mem } :=
    Private.outside ⟨rfl, rfl, rfl, rfl, rfl, rfl⟩
  have switched : Private p kernel (({ kernel with mem := trap.mem }).modify p fun pcb =>
      { pcb with esp := trap.esp }) :=
    stored.trans (Private.modify (fun pcb => { pcb with esp := trap.esp }) fun _ => rfl)
  have saved : Private p kernel ((({ kernel with mem := trap.mem }).modify p fun pcb =>
      { pcb with esp := trap.esp }).modify p fun pcb => { pcb with ret := trap.eax }) :=
    switched.trans (Private.modify (fun pcb => { pcb with ret := trap.eax }) fun _ => rfl)
  simp only [contextswitch]
  cases trap.trapNo with
  | timer => exact saved
  | keyboard => exact saved
  | kernel =>
      exact switched.trans (Private.modify (fun pcb => { pcb with args := trap.edx }) fun _ => rfl)

theorem getCPUtimes_spec (env : Env) (kernel : Kernel) (p : Slot) (ps : Word) :
    ∃ mem, (getCPUtimes env kernel p ps).2 = { kernel with mem := mem } := by
  unfold getCPUtimes
  split
  · exact ⟨kernel.mem, rfl⟩
  · split
    · exact ⟨kernel.mem, rfl⟩
    · exact ⟨_, rfl⟩

theorem getCPUtimes_private (env : Env) (kernel : Kernel) (p : Slot) (ps : Word) :
    Private p kernel (getCPUtimes env kernel p ps).2 := by
  obtain ⟨mem, same⟩ := getCPUtimes_spec env kernel p ps
  rw [same]
  exact Private.outside ⟨rfl, rfl, rfl, rfl, rfl, rfl⟩

theorem pushFrame_touches (env : Env) (kernel : Kernel) (p : Slot) (signum : Fin MAX_SIG) :
    Touches p kernel (pushFrame env kernel p signum) where
  head := rfl
  tail := rfl
  sleepQ := rfl
  others := fun i other => by simp [pushFrame, other]
  own := by simp [pushFrame, Pcb.scheduled]

theorem pushFrame_ret (env : Env) (kernel : Kernel) (p i : Slot) (signum : Fin MAX_SIG) :
    ((pushFrame env kernel p signum).proctab i).ret = (kernel.proctab i).ret := by
  by_cases isP : i = p <;> simp [pushFrame, isP]

def posted (kernel : Kernel) (p : Slot) (signum : Fin MAX_SIG) : Kernel :=
  { kernel.modify p fun pcb => { pcb with sigmask := pcb.sigmask ||| signalMask signum } with
    accepted := kernel.accepted ++ [(p, signum)] }

theorem posted_same {α : Type} (kernel : Kernel) (p : Slot) (signum : Fin MAX_SIG)
    (field : Pcb → α) (same : ∀ pcb mask, field { pcb with sigmask := mask } = field pcb)
    (i : Slot) : field ((posted kernel p signum).proctab i) = field (kernel.proctab i) :=
  Kernel.modify_same kernel p (fun pcb => { pcb with sigmask := pcb.sigmask ||| signalMask signum })
    field (same _ _) i

theorem posted_touches (kernel : Kernel) (p : Slot) (signum : Fin MAX_SIG) :
    Touches p kernel (posted kernel p signum) :=
  ⟨rfl, rfl, rfl, fun i other => by simp [posted, other], by simp [posted, Pcb.scheduled]⟩

theorem signal_cases (env : Env) (kernel : Kernel) (p : Slot) (signum : Fin MAX_SIG) :
    (kernel.proctab p).sigtab signum = 0 ∧ (signal env kernel p signum).2 = kernel ∨
    (kernel.proctab p).sigtab signum ≠ 0 ∧
      ((kernel.proctab p).currSigLvl.toInt < (signum.val : Int) ∧
          (signal env kernel p signum).2 = pushFrame env (posted kernel p signum) p signum ∨
        ¬ (kernel.proctab p).currSigLvl.toInt < (signum.val : Int) ∧
          (signal env kernel p signum).2 = posted kernel p signum) := by
  by_cases handled : (kernel.proctab p).sigtab signum = 0
  · exact Or.inl ⟨handled, by rw [signal, if_neg (not_not.mpr handled)]⟩
  · have result : (signal env kernel p signum).2 =
        if ((posted kernel p signum).proctab p).currSigLvl.toInt < (signum.val : Int) then
          pushFrame env (posted kernel p signum) p signum else posted kernel p signum := by
      rw [signal, if_pos handled]
      rfl
    rw [posted_same kernel p signum (·.currSigLvl) fun _ _ => rfl] at result
    refine Or.inr ⟨handled, ?_⟩
    by_cases lower : (kernel.proctab p).currSigLvl.toInt < (signum.val : Int)
    · exact Or.inl ⟨lower, by rw [result, if_pos lower]⟩
    · exact Or.inr ⟨lower, by rw [result, if_neg lower]⟩

theorem signal_touches (env : Env) (kernel : Kernel) (p : Slot) (signum : Fin MAX_SIG) :
    Touches p kernel (signal env kernel p signum).2 := by
  have accepted := posted_touches kernel p signum
  rcases signal_cases env kernel p signum with ⟨_, same⟩ | ⟨_, ⟨_, same⟩ | ⟨_, same⟩⟩ <;> rw [same]
  · exact ⟨rfl, rfl, rfl, fun _ _ => rfl, rfl⟩
  · exact accepted.trans (pushFrame_touches env _ p signum)
  · exact accepted

theorem signal_ret (env : Env) (kernel : Kernel) (p i : Slot) (signum : Fin MAX_SIG) :
    ((signal env kernel p signum).2.proctab i).ret = (kernel.proctab i).ret := by
  have accepted := posted_same kernel p signum (·.ret) (fun _ _ => rfl) i
  rcases signal_cases env kernel p signum with ⟨_, same⟩ | ⟨_, ⟨_, same⟩ | ⟨_, same⟩⟩ <;> rw [same]
  · exact (pushFrame_ret env _ p i signum).trans accepted
  · exact accepted

/-! The calls on other processes. -/

theorem createSearch_found {kernel : Kernel} {fuel : Nat} {nextpid pid : Word} {i : Slot}
    (found : createSearch kernel fuel nextpid = (pid, some i)) :
    (kernel.proctab i).state = .stopped ∧ i = slotOf pid := by
  induction fuel generalizing nextpid with
  | zero => simp [createSearch] at found
  | succ fuel ih =>
      simp only [createSearch] at found
      split at found
      · rename_i free
        simp only [Prod.mk.injEq, Option.some.injEq] at found
        obtain ⟨rfl, rfl⟩ := found
        exact ⟨free, rfl⟩
      · exact ih found

abbrev stackNeed (stackSize : Word) : Word :=
  if stackSize < PROC_STACK then PROC_STACK else stackSize

/-- `create` finds the free slot `i` for the number `pid`, and memory for a stack. -/
def Creates (kernel : Kernel) (stackSize pid : Word) (i : Slot) : Prop :=
  createSearch kernel MAX_PROC kernel.nextpid = (pid, some i) ∧
    ∃ block heap, kmalloc kernel.heap (stackNeed stackSize) = some (block, heap) ∧ block ≠ 0

theorem Creates.unique {stackSize pid pid' : Word} {i i' : Slot}
    (first : Creates kernel stackSize pid i) (second : Creates kernel stackSize pid' i') :
    pid = pid' ∧ i = i' := by
  have same := first.1.symm.trans second.1
  rw [Prod.mk.injEq, Option.some.injEq] at same
  exact same

theorem create_creates {env : Env} {fp stackSize value : Word}
    (created : create env kernel fp stackSize = some (value, kernel')) :
    (Outside kernel kernel' ∧ ∀ pid i, ¬ Creates kernel stackSize pid i) ∨
    ∃ i base esp pid, Creates kernel stackSize pid i ∧ Outside kernel base ∧
      kernel' = ready (base.modify i fun pcb =>
        { pcb with esp := esp, state := .ready, pid := pid }) i := by
  simp only [create] at created
  split at created
  · rename_i full
    cases created
    refine Or.inl ⟨⟨rfl, rfl, rfl, rfl, rfl, rfl⟩, ?_⟩
    rintro pid i ⟨search, _⟩
    rw [search] at full
    cases full
  · rename_i i found
    split at created
    · cases created
    · rename_i block heap allocated
      split at created
      · rename_i refused
        cases created
        refine Or.inl ⟨⟨rfl, rfl, rfl, rfl, rfl, rfl⟩, ?_⟩
        rintro pid j ⟨_, block', heap', allocated', granted⟩
        rw [allocated] at allocated'
        cases allocated'
        exact granted refused
      · rename_i granted
        cases created
        refine Or.inr ⟨i, _, _, _, ⟨Prod.ext rfl found, block, heap, allocated, granted⟩, ?_, rfl⟩
        exact ⟨rfl, rfl, rfl, rfl, rfl, rfl⟩

theorem create_cases {env : Env} {fp stackSize value : Word}
    (created : create env kernel fp stackSize = some (value, kernel')) :
    Outside kernel kernel' ∨
    ∃ i base esp pid, (kernel.proctab i).state = .stopped ∧ i = slotOf pid ∧
      Outside kernel base ∧ kernel' = ready (base.modify i fun pcb =>
        { pcb with esp := esp, state := .ready, pid := pid }) i := by
  rcases create_creates created with ⟨outside, _⟩ | ⟨i, base, esp, pid, creates, outside, rfl⟩
  · exact Or.inl outside
  · obtain ⟨free, slot⟩ := createSearch_found creates.1
    exact Or.inr ⟨i, base, esp, pid, free, slot, outside, rfl⟩

/-- The process that `kill` reaches: a signal that is out of range, sent to nobody or still
pending is dropped. -/
def killTarget (kernel : Kernel) (pid signum : Word) : Option Slot :=
  if signum.toInt < 0 ∨ 31 < signum.toInt then none
  else (findPCB kernel pid).filter fun target =>
    (kernel.proctab target).sigmask &&& signalMask (Fin.ofNat MAX_SIG signum.toNat) = 0

theorem kill_dropped (env : Env) {pid signum : Word}
    (dropped : killTarget kernel pid signum = none) :
    ∃ value, kill env kernel pid signum = some (value, kernel) := by
  simp only [killTarget] at dropped
  simp only [kill]
  split at dropped
  · rename_i outside
    exact ⟨_, if_pos outside⟩
  · rename_i inside
    rw [if_neg inside]
    cases found : findPCB kernel pid with
    | none => exact ⟨_, rfl⟩
    | some target =>
        rw [found] at dropped
        have pending : (kernel.proctab target).sigmask &&&
            signalMask (Fin.ofNat MAX_SIG signum.toNat) ≠ 0 := by simpa using dropped
        exact ⟨_, if_pos pending⟩

theorem signum_toNat_le {signum : Word} (inside : ¬ (signum.toInt < 0 ∨ 31 < signum.toInt)) :
    signum.toNat ≤ 31 := by
  rw [BitVec.toInt_eq_toNat_cond] at inside
  split at inside <;> omega

theorem kill_reached (env : Env) {pid signum : Word} {target : Slot}
    (reached : killTarget kernel pid signum = some target) :
    kill env kernel pid signum = (killWake kernel target).bind fun kernel =>
      if signum = 31 then (killUnlink kernel target).map fun kernel =>
        signal env (wakeWaiters kernel target) target 31
      else some (signal env kernel target (Fin.ofNat MAX_SIG signum.toNat)) := by
  simp only [killTarget] at reached
  simp only [kill]
  split at reached
  · cases reached
  · rename_i inside
    rw [if_neg inside]
    obtain ⟨found, free⟩ := Option.filter_eq_some_iff.mp reached
    rw [found]
    have notPending : ¬ (kernel.proctab target).sigmask &&&
        signalMask (Fin.ofNat MAX_SIG signum.toNat) ≠ 0 := by simpa using free
    have bound := signum_toNat_le inside
    have fatal : (Fin.ofNat MAX_SIG signum.toNat).val = 31 ↔ signum = 31 := by
      constructor
      · intro same
        change signum.toNat % 32 = 31 at same
        rw [Nat.mod_eq_of_lt (by omega)] at same
        exact BitVec.eq_of_toNat_eq same
      · rintro rfl
        rfl
    simp only [if_neg notPending, fatal]
    cases killWake kernel target with
    | none => rfl
    | some woken =>
        simp only [Option.bind_some]
        by_cases isFatal : signum = 31
        · simp only [isFatal, if_true]
          cases killUnlink woken target <;> rfl
        · simp only [isFatal, if_false]

theorem signal_value (env : Env) (kernel : Kernel) (p : Slot) (signum : Fin MAX_SIG) :
    (signal env kernel p signum).1 = 0 := by
  unfold signal
  split <;> rfl

theorem kill_parts {env : Env} {pid signum value : Word} {target : Slot}
    (reached : killTarget kernel pid signum = some target)
    (killed : kill env kernel pid signum = some (value, kernel')) :
    value = 0 ∧ ∃ woken, killWake kernel target = some woken ∧
      (signum ≠ 31 ∧ kernel' = (signal env woken target (Fin.ofNat MAX_SIG signum.toNat)).2 ∨
      signum = 31 ∧ ∃ unlinked, killUnlink woken target = some unlinked ∧
        kernel' = (signal env (wakeWaiters unlinked target) target 31).2) := by
  rw [kill_reached env reached] at killed
  obtain ⟨woken, wakes, rest⟩ := Option.bind_eq_some_iff.mp killed
  split at rest
  · rename_i fatal
    obtain ⟨unlinked, unlinks, result⟩ := Option.map_eq_some_iff.mp rest
    refine ⟨?_, woken, wakes, Or.inr ⟨fatal, unlinked, unlinks, ?_⟩⟩
    · exact (congrArg Prod.fst result).symm.trans (signal_value env _ target 31)
    · exact (congrArg Prod.snd result).symm
  · rename_i other
    refine ⟨?_, woken, wakes, Or.inl ⟨other, ?_⟩⟩
    · exact (congrArg Prod.fst (Option.some.inj rest)).symm.trans (signal_value env _ target _)
    · exact (congrArg Prod.snd (Option.some.inj rest)).symm

theorem serve_sighandler {env : Env} {ports : Ports} {signum handler : Word} {d : Dispatcher}
    (served : serve env kernel p ports (.sighandler signum handler) = some d) :
    (((env.HOLESTART ≤ handler ∧ handler ≤ env.HOLEEND) ∨ env.maxaddr < handler) ∧
      d = resume p (0, kernel)) ∨
    (¬ ((env.HOLESTART ≤ handler ∧ handler ≤ env.HOLEEND) ∨ env.maxaddr < handler) ∧
      d = resume p ((kernel.proctab p).sigtab (Fin.ofNat MAX_SIG signum.toNat),
        kernel.modify p fun pcb => { pcb with
          sigtab := fun i =>
            if i = Fin.ofNat MAX_SIG signum.toNat then handler else pcb.sigtab i })) := by
  simp only [serve] at served
  split at served
  · rename_i outside
    exact Or.inl ⟨outside, (Option.some.inj served).symm⟩
  · rename_i inside
    split at served
    · exact Or.inr ⟨inside, (Option.some.inj served).symm⟩
    · cases served

theorem serve_wait {env : Env} {ports : Ports} {pid : Word} {d : Dispatcher}
    (served : serve env kernel p ports (.wait pid) = some d) :
    ((pid = 0 ∨ findPCB kernel pid = none) ∧ d = resume p (-1, kernel)) ∨
      (∃ target, findPCB kernel pid = some target) ∧ pid ≠ 0 ∧
        reschedule (kernel.modify p fun pcb =>
          { pcb with state := .wait, waitpid := pid, ret := 0 }) = some d := by
  simp only [serve] at served
  split at served
  · rename_i absent
    exact Or.inl ⟨Or.inr absent, (Option.some.inj served).symm⟩
  · rename_i target found
    split at served
    · rename_i zero
      exact Or.inl ⟨Or.inl zero, (Option.some.inj served).symm⟩
    · rename_i nonzero
      exact Or.inr ⟨⟨target, found⟩, nonzero, served⟩

def Request.IsLocal : Request → Prop
  | .cputimes _ | .puts _ | .getpid | .sighandler _ _ | .sigreturn _ _ _ | .openDevice _
  | .close _ | .write _ _ _ | .ioctl _ _ _ | .keyboard | .bad _ => True
  | .create _ _ | .yield | .stop | .kill _ _ | .sleep _ | .timer | .wait _ | .read _ _ _ => False

theorem serve_creates {env : Env} {ports : Ports} {request : Request} {d : Dispatcher}
    (served : serve env kernel p ports request = some d) :
    (∃ fp stack value kernel', request = .create fp stack ∧
      create env kernel fp stack = some (value, kernel') ∧ d = resume p (value, kernel')) ∨
    ∀ fp stack, request ≠ .create fp stack := by
  cases request with
  | create fp stack =>
      obtain ⟨⟨value, kernel'⟩, created, rfl⟩ := Option.map_eq_some_iff.mp served
      exact Or.inl ⟨fp, stack, value, kernel', rfl, created, rfl⟩
  | _ => exact Or.inr fun fp stack => nofun

theorem serve_local {env : Env} {ports : Ports} {request : Request} {d : Dispatcher}
    (isLocal : request.IsLocal) (served : serve env kernel p ports request = some d) :
    d.current = p ∧ Private p kernel d.kernel := by
  cases request with
  | cputimes ps =>
      cases served
      exact ⟨rfl, (getCPUtimes_private env kernel p ps).trans (resume_private _ p _)⟩
  | puts str =>
      cases served
      exact ⟨rfl, resume_private kernel p _⟩
  | getpid =>
      cases served
      exact ⟨rfl, resume_private kernel p _⟩
  | sighandler signum handler =>
      rcases serve_sighandler served with ⟨_, rfl⟩ | ⟨_, rfl⟩
      · exact ⟨rfl, resume_private kernel p _⟩
      · refine ⟨rfl, Private.trans ?_ (resume_private _ p _)⟩
        exact Private.modify _ fun _ => rfl
  | sigreturn old_sp old_ret sigLvl =>
      cases served
      refine ⟨rfl, Private.trans ?_ (resume_private _ p _)⟩
      exact Private.modify _ fun _ => rfl
  | openDevice device_no =>
      cases served
      exact ⟨rfl, (diOpen_private kernel p device_no).trans (resume_private _ p _)⟩
  | close fd =>
      obtain ⟨⟨value, kernel'⟩, closed, rfl⟩ := Option.map_eq_some_iff.mp served
      exact ⟨rfl, (diClose_private closed).trans (resume_private kernel' p value)⟩
  | write fd buff bufflen =>
      obtain ⟨⟨value, kernel'⟩, written, rfl⟩ := Option.map_eq_some_iff.mp served
      exact ⟨rfl, (diWrite_private written).trans (resume_private kernel' p value)⟩
  | ioctl fd command arg3 =>
      obtain ⟨⟨value, kernel'⟩, controlled, rfl⟩ := Option.map_eq_some_iff.mp served
      exact ⟨rfl, (diIoctl_private controlled).trans (resume_private kernel' p value)⟩
  | keyboard =>
      cases served
      exact ⟨rfl, kbdHandler_private kernel p ports⟩
  | bad r =>
      cases served
      exact ⟨rfl, Private.refl⟩
  | _ => exact isLocal.elim

end XerosKernel
