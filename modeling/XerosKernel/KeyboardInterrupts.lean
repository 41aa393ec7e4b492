import XerosKernel.DescriptorTable

/-!
The keyboard interrupt and the descriptors that are open on the keyboard. Every open enables
the interrupt and every close disables it, whichever other descriptors are open.
-/

namespace XerosKernel

open Execution

def KbdOpen (kernel : Kernel) (i : Slot) (fd : Fin MAX_FDT) : Prop :=
  kernel.descriptor i fd = { device := some .kbd, status := .opened }

instance (kernel : Kernel) (i : Slot) (fd : Fin MAX_FDT) : Decidable (KbdOpen kernel i fd) :=
  inferInstanceAs (Decidable (_ = _))

def Listens (kernel : Kernel) : Prop :=
  kernel.kbd.irqEnabled = true ↔ ∃ i fd, KbdOpen kernel i fd

instance (kernel : Kernel) : Decidable (Listens kernel) := inferInstanceAs (Decidable (_ ↔ _))

/-- The keyboard driver's close, if the request calls it, leaves no descriptor open on the
keyboard. -/
def ClosesLast (env : Env) (d : Dispatcher) (trap : Trap) : Prop :=
  ∀ fd, Closes env (d.entered trap) d.current trap.ports fd (d.request trap) →
    (d.request trap = .keyboard ∨ KbdOpen (d.entered trap) d.current fd) →
    ∀ i j, KbdOpen (d.entered trap) i j → i = d.current ∧ j = fd

instance (env : Env) (d : Dispatcher) (trap : Trap) : Decidable (ClosesLast env d trap) :=
  inferInstanceAs (Decidable (∀ _, _))

variable {env : Env} {kernel kernel' : Kernel} {p : Slot} {ports : Ports} {request : Request}
  {d d' : Dispatcher} {trap : Trap}

theorem Wired.listens (wired : Wired kernel kernel') : Listens kernel' ↔ Listens kernel := by
  simp only [Listens, KbdOpen, wired.irq, wired.descriptor]

theorem Closes.opened {fd : Fin MAX_FDT} (closes : Closes env kernel p ports fd request)
    (called : request ≠ .keyboard) : (kernel.descriptor p fd).status = .opened := by
  have status : ∀ fd', ¬ invalidFd kernel p fd' →
      (kernel.descriptor p (fdIndex fd')).status = .opened := by
    intro fd' valid
    simp only [invalidFd, not_or] at valid
    cases status : (kernel.descriptor p (fdIndex fd')).status with
    | close => exact absurd status valid.2.2
    | opened => rfl
  cases request with
  | close fd' =>
      obtain ⟨valid, rfl⟩ := closes
      exact status fd' valid
  | read fd' buff bufflen =>
      obtain ⟨⟨valid, _⟩, rfl⟩ := closes
      exact status fd' valid
  | keyboard => exact absurd rfl called
  | _ => exact closes.elim

theorem Rewires.listens (rewires : Rewires env kernel p ports request kernel')
    (listens : Listens kernel)
    (last : ∀ fd, Closes env kernel p ports fd request →
      (request = .keyboard ∨ KbdOpen kernel p fd) →
      ∀ i j, KbdOpen kernel i j → i = p ∧ j = fd) : Listens kernel' := by
  cases rewires with
  | same wired _ => exact wired.listens.mpr listens
  | failed wired _ => exact wired.listens.mpr listens
  | opened found free writes irq returned =>
      rename_i device_no device fd
      by_cases isKbd : device = .kbd
      · subst isKbd
        have enabled : kernel'.kbd.irqEnabled = true := by rw [irq]; simp
        refine iff_of_true enabled ⟨p, fd, ?_⟩
        rw [KbdOpen, writes, if_pos ⟨rfl, rfl⟩]
      · have same : ∀ i j, KbdOpen kernel' i j ↔ KbdOpen kernel i j := by
          intro i j
          rw [KbdOpen, KbdOpen, writes]
          split
          · rename_i isIt
            obtain ⟨rfl, rfl⟩ := isIt
            refine iff_of_false (by simp [isKbd]) ?_
            intro isOpen
            rw [isOpen] at free
            cases free
          · exact Iff.rfl
        simpa [Listens, irq, isKbd, same] using listens
  | closed closes writes irq =>
      rename_i fd
      by_cases calls : request = .keyboard ∨ KbdOpen kernel p fd
      · have all := last fd closes calls
        have disabled : kernel'.kbd.irqEnabled = false := by
          rw [irq]
          rcases calls with isKeyboard | isOpen
          · simp [isKeyboard]
          · rw [KbdOpen] at isOpen
            simp [isOpen]
        refine iff_of_false (by simp [disabled]) ?_
        rintro ⟨i, j, isOpen⟩
        rw [KbdOpen, writes] at isOpen
        split at isOpen
        · cases isOpen
        · rename_i other
          exact other (all i j isOpen)
      · rw [not_or] at calls
        obtain ⟨called, notOpen⟩ := calls
        have status := closes.opened called
        have otherDevice : (kernel.descriptor p fd).device ≠ some .kbd := by
          intro isKbd
          have parts : kernel.descriptor p fd = { device := (kernel.descriptor p fd).device
                                                  status := (kernel.descriptor p fd).status } := rfl
          exact notOpen (by rw [KbdOpen, parts, isKbd, status])
        have same : ∀ i j, KbdOpen kernel' i j ↔ KbdOpen kernel i j := by
          intro i j
          rw [KbdOpen, writes]
          split
          · rename_i isIt
            obtain ⟨rfl, rfl⟩ := isIt
            exact iff_of_false (by simp) notOpen
          · exact Iff.rfl
        simpa [Listens, irq, called, otherDevice, same] using listens

theorem dispatch_listens (listens : Listens d.kernel) (last : ClosesLast env d trap)
    (stepped : dispatch env d trap = some d') : Listens d'.kernel :=
  (dispatch_rewires stepped).listens ((entered_wired d trap).listens.mpr listens) last

theorem boot_listens (booted : boot env = some d) : Listens d.kernel := by
  obtain ⟨heap, keeps⟩ := boot_keepsFdt booted
  refine keeps.wired.listens.mpr (iff_of_false (by simp [dispatchinit]) ?_)
  rintro ⟨i, fd, isOpen⟩
  cases isOpen

/-- The interrupt is enabled exactly while the keyboard is open, in the runs in which the
keyboard driver closes a descriptor only when no other one is open on the keyboard. -/
theorem keyboard_interrupt {env : Env} {traps : List Trap} {start d : Dispatcher}
    (booted : boot env = some start)
    (along : Along (dispatch env) (ClosesLast env) start traps)
    (reached : run (dispatch env) start traps = some d) :
    d.kernel.kbd.irqEnabled = true ↔ ∃ i fd, KbdOpen d.kernel i fd := by
  have kept : ∀ (state : Dispatcher) trap (next : Dispatcher), Listens state.kernel →
      ClosesLast env state trap → dispatch env state trap = some next → Listens next.kernel :=
    fun _ _ _ listens last stepped => dispatch_listens listens last stepped
  have listens : Listens d.kernel := run_invariant kept (boot_listens booted) along reached
  exact listens

theorem keyboard_interrupt_once : ∃ (start d : Dispatcher), boot sampleEnv = some start ∧
    run (dispatch sampleEnv) start
      (creatorRun ++ [sysopen sampleFrame 2, sysclose sampleFrame 0]) = some d ∧
    d.kernel.kbd.irqEnabled = false ∧
    (d.kernel.kbd.irqEnabled = true ↔ ∃ i fd, KbdOpen d.kernel i fd) := by
  have check : ∃ start ∈ boot sampleEnv,
      Along (dispatch sampleEnv) (ClosesLast sampleEnv) start
        (creatorRun ++ [sysopen sampleFrame 2, sysclose sampleFrame 0]) ∧
      ∃ d ∈ run (dispatch sampleEnv) start
        (creatorRun ++ [sysopen sampleFrame 2, sysclose sampleFrame 0]),
        d.kernel.kbd.irqEnabled = false := by
    decide +kernel
  obtain ⟨start, booted, along, d, reached, disabled⟩ := check
  exact ⟨start, d, booted, reached, disabled, keyboard_interrupt booted along reached⟩

/-- The third process opens the keyboard twice and closes one of the two descriptors. -/
theorem keyboard_interrupt_broken : ∃ d, Reaches sampleEnv anyRequest (creatorRun ++
      [sysopen sampleFrame 2, sysopen sampleFrame 2, sysclose sampleFrame 0]) d ∧
    d.kernel.kbd.irqEnabled = false ∧ KbdOpen d.kernel 3 1 := by
  obtain ⟨d, reaches, outcome⟩ := reaches_of_check sampleEnv anyRequest (creatorRun ++
      [sysopen sampleFrame 2, sysopen sampleFrame 2, sysclose sampleFrame 0])
    (fun d => d.kernel.kbd.irqEnabled = false ∧ KbdOpen d.kernel 3 1) (by decide +kernel)
  exact ⟨d, reaches, outcome⟩

end XerosKernel
