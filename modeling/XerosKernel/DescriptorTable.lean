import XerosKernel.Descriptors
import XerosKernel.Runs

/-!
The descriptor tables over whole runs: a descriptor is open exactly if it has a device, the
device is the one it was opened with, and it stays open until the process closes it or an
interrupt with the `eof` character meets it.
-/

namespace XerosKernel

open Execution

variable {env : Env} {d d' : Dispatcher} {trap : Trap}

theorem entered_wired (d : Dispatcher) (trap : Trap) : Wired d.kernel (d.entered trap) :=
  (contextswitch_keepsFdt d.kernel d.current trap).wired

theorem dispatch_rewires (stepped : dispatch env d trap = some d') :
    Rewires env (d.entered trap) d.current trap.ports (d.request trap) d'.kernel :=
  serve_rewires stepped

/-! Open descriptors have devices. -/

/-- A descriptor is open exactly if it has a device, which is the device-table entry of
`device_no`. -/
structure FdStruct.Suits (fdStruct : FdStruct) (device_no : Word) : Prop where
  opened : fdStruct.status = .opened ↔ fdStruct.device ≠ none
  entry : ∀ device ∈ fdStruct.device,
    devtable.find? (fun device => device.dvnum = device_no) = some device

/-- A run of the dispatcher with the device number that each descriptor was last opened
with. -/
structure OpenHistory where
  d : Dispatcher
  lastOpened : Slot → Fin MAX_FDT → Word

namespace OpenHistory

def recorded (history : OpenHistory) (trap : Trap) (d' : Dispatcher) (i : Slot)
    (fd : Fin MAX_FDT) : Word :=
  match history.d.request trap with
  | .openDevice device_no =>
      if i = history.d.current ∧ (d'.kernel.proctab i).ret = BitVec.ofNat 32 fd then device_no
      else history.lastOpened i fd
  | _ => history.lastOpened i fd

def step (env : Env) (history : OpenHistory) (trap : Trap) : Option OpenHistory :=
  (dispatch env history.d trap).map fun d' =>
    { d := d', lastOpened := history.recorded trap d' }

def Consistent (history : OpenHistory) : Prop :=
  ∀ i fd, (history.d.kernel.descriptor i fd).Suits (history.lastOpened i fd)

variable {history history' : OpenHistory}

theorem recorded_other (quiet : ∀ device_no, history.d.request trap ≠ .openDevice device_no)
    (i : Slot) (fd : Fin MAX_FDT) : history.recorded trap d' i fd = history.lastOpened i fd := by
  unfold recorded
  split
  · rename_i device_no opens
    exact absurd opens (quiet device_no)
  · rfl

theorem recorded_open {device_no : Word} (opens : history.d.request trap = .openDevice device_no)
    (i : Slot) (fd : Fin MAX_FDT) : history.recorded trap d' i fd =
      if i = history.d.current ∧ (d'.kernel.proctab i).ret = BitVec.ofNat 32 fd then device_no
      else history.lastOpened i fd := by
  rw [recorded, opens]

theorem fd_injective {fd fd' : Fin MAX_FDT}
    (same : BitVec.ofNat 32 fd = BitVec.ofNat 32 fd') : fd = fd' := by
  have numbers := congrArg BitVec.toNat same
  have small : fd.val < 4 := fd.isLt
  have small' : fd'.val < 4 := fd'.isLt
  simp only [BitVec.toNat_ofNat] at numbers
  exact Fin.ext (by omega)

theorem fd_ne_failure (fd : Fin MAX_FDT) : (-1 : Word) ≠ BitVec.ofNat 32 fd := by
  revert fd
  decide

theorem Consistent.step (consistent : Consistent history)
    (stepped : history.step env trap = some history') : Consistent history' := by
  obtain ⟨d', served, rfl⟩ := Option.map_eq_some_iff.mp stepped
  have entered := (entered_wired history.d trap).descriptor
  have rewires := dispatch_rewires served
  generalize request : history.d.request trap = asked at rewires
  intro i fd
  change (d'.kernel.descriptor i fd).Suits (history.recorded trap d' i fd)
  have before := consistent i fd
  rw [← entered i fd] at before
  cases rewires with
  | same wired quiet =>
      rw [recorded_other (by rwa [request]), wired.descriptor]
      exact before
  | failed wired returned =>
      rw [recorded_open request, wired.descriptor, if_neg]
      · exact before
      · rintro ⟨rfl, success⟩
        rw [returned] at success
        exact fd_ne_failure fd success
  | opened found free writes irq returned =>
      rename_i device_no device fd'
      by_cases isIt : i = history.d.current ∧ fd = fd'
      · obtain ⟨rfl, rfl⟩ := isIt
        rw [recorded_open request, if_pos ⟨rfl, returned⟩, writes, if_pos ⟨rfl, rfl⟩]
        exact ⟨by simp, by simpa using found⟩
      · rw [recorded_open request, if_neg, writes, if_neg isIt]
        · exact before
        · rintro ⟨rfl, success⟩
          exact isIt ⟨rfl, fd_injective (success.symm.trans returned)⟩
  | closed closes writes irq =>
      have quiet : ∀ device_no, history.d.request trap ≠ .openDevice device_no := by
        rintro device_no opens
        rw [← request, opens] at closes
        exact closes
      rw [recorded_other quiet, writes]
      split
      · exact ⟨by simp, by simp⟩
      · exact before

theorem Consistent.run {traps : List Trap} (consistent : Consistent history)
    (reached : run (OpenHistory.step env) history traps = some history') : Consistent history' :=
  run_invariant (fun _ _ _ consistent _ stepped => consistent.step stepped) consistent along_true
    reached

theorem boot_consistent (booted : boot env = some history.d) : Consistent history := by
  have closed : ∀ i fd, history.d.kernel.descriptor i fd = {} := by
    obtain ⟨heap, keeps⟩ := boot_keepsFdt booted
    exact keeps.wired.descriptor
  intro i fd
  rw [closed]
  exact ⟨by simp, by simp⟩

end OpenHistory

/-- A call on a descriptor fails and changes nothing, or it calls the operation of the device
that the descriptor, which is one of the four, is open on. -/
def Dispatched (kernel : Kernel) (p : Slot) (fd : Word) (answer : Option (Word × Kernel))
    (operation : Device → Option (Word × Kernel)) : Prop :=
  answer = some (-1, kernel) ∨
    (0 ≤ fd.toInt ∧ fd.toInt ≤ 3) ∧ (kernel.descriptor p (fdIndex fd)).status = .opened ∧
      ∃ device, deviceOf kernel p fd = some device ∧ answer = operation device

section Calls

variable {kernel : Kernel}

def Equipped (kernel : Kernel) : Prop :=
  ∀ i fd, (kernel.descriptor i fd).status = .opened → (kernel.descriptor i fd).device ≠ none

theorem valid_device (equipped : Equipped kernel) {p : Slot} {fd : Word}
    (valid : ¬ invalidFd kernel p fd) :
    (0 ≤ fd.toInt ∧ fd.toInt ≤ 3) ∧ (kernel.descriptor p (fdIndex fd)).status = .opened ∧
      ∃ device, deviceOf kernel p fd = some device := by
  simp only [invalidFd, not_or, Int.not_lt] at valid
  obtain ⟨low, high, notClosed⟩ := valid
  have opened : (kernel.descriptor p (fdIndex fd)).status = .opened := by
    cases status : (kernel.descriptor p (fdIndex fd)).status with
    | close => exact absurd status notClosed
    | opened => rfl
  have device := equipped p (fdIndex fd) opened
  exact ⟨⟨low, high⟩, opened, Option.ne_none_iff_exists'.mp device⟩

theorem diClose_dispatched (equipped : Equipped kernel) (p : Slot) (fd : Word) :
    Dispatched kernel p fd (diClose kernel p fd)
      fun device => some (device.dvclose kernel p fd) := by
  unfold diClose
  split
  · exact Or.inl rfl
  · rename_i valid
    obtain ⟨range, opened, device, isDevice⟩ := valid_device equipped valid
    exact Or.inr ⟨range, opened, device, isDevice, by rw [isDevice, Option.map_some]⟩

theorem diRead_dispatched (env : Env) (equipped : Equipped kernel) (p : Slot)
    (fd buff bufflen : Word) : Dispatched kernel p fd (diRead env kernel p fd buff bufflen)
      fun device => device.dvread env kernel p fd buff bufflen := by
  unfold diRead
  split
  · exact Or.inl rfl
  · rename_i valid
    split
    · exact Or.inl rfl
    · obtain ⟨range, opened, device, isDevice⟩ := valid_device equipped valid
      exact Or.inr ⟨range, opened, device, isDevice, by rw [isDevice, Option.bind_some]⟩

theorem diWrite_dispatched (env : Env) (equipped : Equipped kernel) (p : Slot)
    (fd buff bufflen : Word) : Dispatched kernel p fd (diWrite env kernel p fd buff bufflen)
      fun device => some (device.dvwrite kernel p fd buff bufflen) := by
  unfold diWrite
  split
  · exact Or.inl rfl
  · rename_i valid
    split
    · exact Or.inl rfl
    · obtain ⟨range, opened, device, isDevice⟩ := valid_device equipped valid
      exact Or.inr ⟨range, opened, device, isDevice, by rw [isDevice, Option.map_some]⟩

theorem diIoctl_dispatched (env : Env) (equipped : Equipped kernel) (p : Slot)
    (fd command arg3 : Word) : Dispatched kernel p fd (diIoctl env kernel p fd command arg3)
      fun device => some (device.dvioctl env kernel command arg3) := by
  unfold diIoctl
  split
  · exact Or.inl rfl
  · rename_i valid
    obtain ⟨range, opened, device, isDevice⟩ := valid_device equipped valid
    exact Or.inr ⟨range, opened, device, isDevice, by rw [isDevice, Option.map_some]⟩

end Calls

/-- In every run the descriptor tables are consistent, and no call of a process, at whatever
entry to the kernel and with whatever descriptor, goes through a null device. -/
theorem descriptor_table {env : Env} {traps : List Trap} {start final : OpenHistory}
    (booted : boot env = some start.d)
    (reached : run (OpenHistory.step env) start traps = some final) :
    final.Consistent ∧ ∀ (trap : Trap) (p : Slot) (fd x y : Word),
      Dispatched (final.d.entered trap) p fd (diClose (final.d.entered trap) p fd)
        (fun device => some (device.dvclose (final.d.entered trap) p fd)) ∧
      Dispatched (final.d.entered trap) p fd (diRead env (final.d.entered trap) p fd x y)
        (fun device => device.dvread env (final.d.entered trap) p fd x y) ∧
      Dispatched (final.d.entered trap) p fd (diWrite env (final.d.entered trap) p fd x y)
        (fun device => some (device.dvwrite (final.d.entered trap) p fd x y)) ∧
      Dispatched (final.d.entered trap) p fd (diIoctl env (final.d.entered trap) p fd x y)
        (fun device => some (device.dvioctl env (final.d.entered trap) x y)) := by
  have consistent := (OpenHistory.boot_consistent booted).run reached
  refine ⟨consistent, fun trap p fd x y => ?_⟩
  have equipped : Equipped (final.d.entered trap) := by
    intro i fd
    rw [(entered_wired final.d trap).descriptor]
    exact (consistent i fd).opened.mp
  exact ⟨diClose_dispatched equipped p fd, diRead_dispatched env equipped p fd x y,
    diWrite_dispatched env equipped p fd x y, diIoctl_dispatched env equipped p fd x y⟩

theorem descriptor_table_rand : ∃ (start final : OpenHistory),
    boot sampleEnv = some start.d ∧ (final.d.kernel.descriptor 3 0).device = some .rand ∧
      final.lastOpened 3 0 = 1 ∧ final.Consistent := by
  have check : ∃ start ∈ boot sampleEnv,
      ∃ final ∈ run (OpenHistory.step sampleEnv) ⟨start, fun _ _ => 0⟩
        (creatorRun ++ [sysopen sampleFrame 1]),
        (final.d.kernel.descriptor 3 0).device = some .rand ∧ final.lastOpened 3 0 = 1 := by
    decide +kernel
  obtain ⟨start, booted, final, reached, device, opened⟩ := check
  have booted' : boot sampleEnv = some (OpenHistory.d ⟨start, fun _ _ => 0⟩) := booted
  exact ⟨⟨start, fun _ _ => 0⟩, final, booted, device, opened,
    (descriptor_table booted' reached).1⟩

/-! Who closes a descriptor. -/

/-- The running process is not `p`, or it does not close the descriptor `fd`. -/
def LeavesOpen (env : Env) (p : Slot) (fd : Fin MAX_FDT) (d : Dispatcher) (trap : Trap) : Prop :=
  d.current = p → ¬ Closes env (d.entered trap) p trap.ports fd (d.request trap)

instance (env : Env) (p : Slot) (fd : Fin MAX_FDT) (d : Dispatcher) (trap : Trap) :
    Decidable (LeavesOpen env p fd d trap) := inferInstanceAs (Decidable (_ → _))

theorem dispatch_leavesOpen {p : Slot} {fd : Fin MAX_FDT} {device : Device}
    (opened : d.kernel.descriptor p fd = { device := some device, status := .opened })
    (leaves : LeavesOpen env p fd d trap) (stepped : dispatch env d trap = some d') :
    d'.kernel.descriptor p fd = { device := some device, status := .opened } := by
  rw [← (entered_wired d trap).descriptor] at opened
  have rewires := dispatch_rewires stepped
  rw [LeavesOpen] at leaves
  generalize d.request trap = asked at leaves rewires
  cases rewires with
  | same wired _ => rw [wired.descriptor, opened]
  | failed wired _ => rw [wired.descriptor, opened]
  | opened found free writes irq returned =>
      rw [writes, if_neg, opened]
      rintro ⟨rfl, rfl⟩
      rw [opened] at free
      cases free
  | closed closes writes irq =>
      rw [writes, if_neg, opened]
      rintro ⟨rfl, rfl⟩
      exact leaves rfl closes

theorem dispatch_open {device_no : Word} {fd : Fin MAX_FDT}
    (request : d.request trap = .openDevice device_no) (stepped : dispatch env d trap = some d')
    (returned : (d'.kernel.proctab d.current).ret = BitVec.ofNat 32 fd) :
    ∃ device, device.dvnum = device_no ∧
      d'.kernel.descriptor d.current fd = { device := some device, status := .opened } := by
  have rewires := dispatch_rewires stepped
  rw [request] at rewires
  cases rewires with
  | same _ quiet => exact absurd rfl (quiet device_no)
  | failed wired failure =>
      rw [failure] at returned
      exact absurd returned (OpenHistory.fd_ne_failure fd)
  | opened found free writes irq value =>
      rename_i device fd'
      have same : fd = fd' := OpenHistory.fd_injective (returned.symm.trans value)
      refine ⟨device, by simpa using List.find?_some found, ?_⟩
      rw [writes, if_pos ⟨rfl, same⟩]
  | closed closes _ _ => exact closes.elim

/-- A descriptor that `sysopen` returned stays open on its device in the runs in which its
process neither closes it nor reads the end of the input on it, and in which the `eof`
character does not arrive while its process runs if it is descriptor 0. -/
theorem descriptor_kept {env : Env} {d d' d'' : Dispatcher} {trap : Trap} {after : List Trap}
    {device_no : Word} {fd : Fin MAX_FDT} (request : d.request trap = .openDevice device_no)
    (opened : dispatch env d trap = some d')
    (returned : (d'.kernel.proctab d.current).ret = BitVec.ofNat 32 fd)
    (along : Along (dispatch env) (LeavesOpen env d.current fd) d' after)
    (reached : run (dispatch env) d' after = some d'') :
    ∃ device, device.dvnum = device_no ∧
      d''.kernel.descriptor d.current fd = { device := some device, status := .opened } := by
  obtain ⟨device, number, first⟩ := dispatch_open request opened returned
  refine ⟨device, number, ?_⟩
  have kept : ∀ (state : Dispatcher) trap (next : Dispatcher),
      state.kernel.descriptor d.current fd = { device := some device, status := .opened } →
      LeavesOpen env d.current fd state trap → dispatch env state trap = some next →
      next.kernel.descriptor d.current fd = { device := some device, status := .opened } :=
    fun _ _ _ isOpen leaves stepped => dispatch_leavesOpen isOpen leaves stepped
  exact run_invariant kept first along reached

def zeroRun : List Trap :=
  [sysyield sampleFrame, sysopen sampleFrame 2, syscreate sampleFrame 0x5000 0,
    sysyield sampleFrame, sysyield sampleFrame]

def keyTrap (scanCode : Byte) : Trap :=
  { trapNo := .keyboard, esp := sampleFrame.esp, eax := 0, edx := 0, mem := sampleFrame.mem,
    ports := ⟨1, scanCode⟩ }

theorem descriptor_kept_read : ∃ (d d' d'' : Dispatcher) (device : Device),
    Reaches sampleEnv anyRequest zeroRun d ∧
    dispatch sampleEnv d (sysopen sampleFrame 0) = some d' ∧
    run (dispatch sampleEnv) d' [sysread sampleFrame 0 0x80020 8, sysclose sampleFrame 1] =
      some d'' ∧
    device.dvnum = 0 ∧
    d''.kernel.descriptor 3 0 = { device := some device, status := .opened } := by
  obtain ⟨d, reaches, outcome⟩ := reaches_of_check sampleEnv anyRequest zeroRun
    (fun d => d.current = 3 ∧ d.request (sysopen sampleFrame 0) = .openDevice 0 ∧
      ∃ d' ∈ dispatch sampleEnv d (sysopen sampleFrame 0),
        (d'.kernel.proctab 3).ret = BitVec.ofNat 32 (0 : Fin MAX_FDT) ∧
        Along (dispatch sampleEnv) (LeavesOpen sampleEnv 3 0) d'
          [sysread sampleFrame 0 0x80020 8, sysclose sampleFrame 1] ∧
        ∃ d'' ∈ run (dispatch sampleEnv) d'
          [sysread sampleFrame 0 0x80020 8, sysclose sampleFrame 1], True)
    (by decide +kernel)
  obtain ⟨current, request, d', opened, returned, along, d'', reached, _⟩ := outcome
  rw [← current] at returned along
  obtain ⟨device, number, kept⟩ := descriptor_kept request opened returned along reached
  rw [current] at kept
  exact ⟨d, d', d'', device, reaches, opened, reached, number, kept⟩

/-- Control and D are pressed while the third process runs: its descriptor for the zero device
is closed. -/
theorem descriptor_kept_broken : ∃ (d d' d'' : Dispatcher),
    Reaches sampleEnv anyRequest zeroRun d ∧ d.current = 3 ∧
      dispatch sampleEnv d (sysopen sampleFrame 0) = some d' ∧
      d'.kernel.descriptor 3 0 = { device := some .zero, status := .opened } ∧
      run (dispatch sampleEnv) d' [keyTrap 0x1d, keyTrap 0x20] = some d'' ∧
      d''.kernel.descriptor 3 0 = {} := by
  obtain ⟨d, reaches, outcome⟩ := reaches_of_check sampleEnv anyRequest zeroRun
    (fun d => d.current = 3 ∧ ∃ d' ∈ dispatch sampleEnv d (sysopen sampleFrame 0),
      d'.kernel.descriptor 3 0 = { device := some .zero, status := .opened } ∧
      ∃ d'' ∈ run (dispatch sampleEnv) d' [keyTrap 0x1d, keyTrap 0x20],
        d''.kernel.descriptor 3 0 = {})
    (by decide +kernel)
  obtain ⟨current, d', opened, device, d'', reached, closed⟩ := outcome
  exact ⟨d, d', d'', reaches, current, opened, device, reached, closed⟩

end XerosKernel
