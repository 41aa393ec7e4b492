import XerosKernel.DeviceReads
import XerosKernel.KeyboardBlocking
import XerosKernel.MemoryCopies

/-!
The data buffers of the descriptors. The drivers copy through `dataBuffer`, but nothing ever gives
it a value other than 0.
-/

namespace XerosKernel

open Execution

def Kernel.dataBuffer (kernel : Kernel) (i : Slot) (fd : Fin MAX_FDT) : Word :=
  ((kernel.proctab i).fdt fd).dataBuffer

def Unbuffered (kernel : Kernel) : Prop := ∀ i fd, kernel.dataBuffer i fd = 0

def CopiesData (env : Env) (kernel : Kernel) (p : Slot) (fd : Fin MAX_FDT) (n : Nat) :
    Request → Prop
  | .write fd' buff bufflen => CallsDevice env kernel p fd' buff ∧
      deviceOf kernel p fd' = some .zero ∧ fdIndex fd' = fd ∧ bufflen.toNat = n
  | .read fd' buff _ =>
      ReadsKbd env kernel p fd' buff ∧ BlocksReader kernel.kbd ∧ fdIndex fd' = fd ∧ n = 1
  | _ => False

/-- The descriptors own the bytes that are copied to their data buffers. -/
def TargetsOwned (env : Env) (owned : Slot → Fin MAX_FDT → Set Word) (kernel : Kernel) (p : Slot)
    (request : Request) : Prop :=
  ∀ fd n, CopiesData env kernel p fd n request → 0 < n →
    ∀ k < n, kernel.dataBuffer p fd + BitVec.ofNat 32 k ∈ owned p fd

/-- A write to the zero device has no bytes, and a read of the keyboard finds none that it keeps
for later. -/
def LeavesData (env : Env) (kernel : Kernel) (p : Slot) : Request → Prop
  | .write fd buff bufflen =>
      CallsDevice env kernel p fd buff → deviceOf kernel p fd = some .zero → bufflen = 0
  | .read fd buff _ => ReadsKbd env kernel p fd buff → ¬ BlocksReader kernel.kbd
  | _ => True

/-- The device that is read keeps to a buffer of this length. -/
def KeepsToBuffer (env : Env) (kernel : Kernel) (p : Slot) : Request → Prop
  | .read fd buff bufflen => CallsDevice env kernel p fd buff →
      (deviceOf kernel p fd = some .zero → 0 ≤ bufflen.toInt) ∧
      (deviceOf kernel p fd = some .rand → 0 ≤ bufflen.toInt → bufflen.toNat % 4 = 0) ∧
      (deviceOf kernel p fd = some .kbd → atEof kernel.kbd → 1 ≤ bufflen.toInt)
  | _ => True

def callerBuffer : Request → Set Word
  | .read _ buff bufflen | .write _ buff bufflen =>
      { addr | ((addr - buff).toNat : Int) < bufflen.toInt }
  | _ => ∅

def Request.IsTransfer : Request → Prop
  | .read _ _ _ | .write _ _ _ => True
  | _ => False

instance (request : Request) : Decidable request.IsTransfer := by
  cases request <;> unfold Request.IsTransfer <;> infer_instance

variable {env : Env} {kernel kernel' : Kernel} {p : Slot} {fd buff bufflen value : Word}
  {ports : Ports} {request : Request} {d d' : Dispatcher} {trap : Trap} {traps : List Trap}

/-! Nothing sets a data buffer. -/

theorem KeepsFdt.unbuffered (keeps : KeepsFdt kernel kernel') (unset : Unbuffered kernel) :
    Unbuffered kernel' := by
  intro i fd
  rw [Kernel.dataBuffer, keeps.fdt]
  exact unset i fd

theorem writeFdt_unbuffered (unset : Unbuffered kernel) (p : Slot) (fd : Fin MAX_FDT)
    {write : FdStruct → FdStruct}
    (zero : ∀ fdStruct, fdStruct.dataBuffer = 0 → (write fdStruct).dataBuffer = 0) :
    Unbuffered (kernel.writeFdt p fd write) := by
  intro i j
  have before := unset i j
  rw [Kernel.dataBuffer] at before ⊢
  rw [Kernel.writeFdt, Kernel.modify_proctab]
  split
  · simp only
    split
    · exact zero _ before
    · exact before
  · exact before

theorem openFirst_unbuffered (unset : Unbuffered kernel) (p : Slot) (device : Device) :
    Unbuffered (openFirst kernel p device).2 := by
  unfold openFirst
  split
  · exact unset
  · rename_i i _
    have opens : ∀ fdStruct : FdStruct, fdStruct.dataBuffer = 0 →
        ({ fdStruct with status := .opened, device := some device } : FdStruct).dataBuffer = 0 :=
      fun _ => id
    exact writeFdt_unbuffered unset p i opens

theorem closeDescriptor_unbuffered (unset : Unbuffered kernel) (p : Slot) (fd : Word) :
    Unbuffered (closeDescriptor kernel p fd) := by
  have closes : ∀ fdStruct : FdStruct, fdStruct.dataBuffer = 0 →
      ({ fdStruct with device := none, status := .close } : FdStruct).dataBuffer = 0 := fun _ => id
  exact writeFdt_unbuffered unset p (fdIndex fd) closes

theorem dvopen_unbuffered (unset : Unbuffered kernel) (p : Slot) (device : Device) :
    Unbuffered (device.dvopen kernel p).2 := by
  cases device with
  | zero => exact openFirst_unbuffered unset p .zero
  | rand => exact openFirst_unbuffered unset p .rand
  | kbd =>
      have opened := openFirst_unbuffered unset p .kbd
      simp only [Device.dvopen, kbdOpen]
      split
      · exact opened
      · exact opened

theorem dvclose_unbuffered (unset : Unbuffered kernel) (p : Slot) (device : Device) (fd : Word) :
    Unbuffered (device.dvclose kernel p fd).2 := by
  cases device with
  | zero => exact closeDescriptor_unbuffered unset p fd
  | rand => exact closeDescriptor_unbuffered unset p fd
  | kbd =>
      have closed : Unbuffered { kernel with
          kbd := { kernel.kbd with echo := true, irqEnabled := false } } := unset
      exact closeDescriptor_unbuffered closed p fd

theorem kbdRead_unbuffered (unset : Unbuffered kernel) (p : Slot) (fd buff : Word) :
    Unbuffered (kbdRead kernel p fd buff).2 := by
  rw [kbdRead_eq]
  cases firstUnread kernel.kbd with
  | none => exact unset
  | some i =>
      have taken : Unbuffered (takeChar kernel buff i) := unset
      simp only
      split
      · exact (KeepsFdt.moves (ready_moves _ p)).unbuffered (dvclose_unbuffered taken p .kbd fd)
      · split
        · exact unset
        · refine (KeepsFdt.modify _ p (fun pcb => { pcb with state := .blocked })
            fun _ => rfl).unbuffered ?_
          exact unset

theorem dvread_unbuffered {device : Device} (unset : Unbuffered kernel)
    (answer : device.dvread env kernel p fd buff bufflen = some (value, kernel')) :
    Unbuffered kernel' := by
  cases device with
  | zero =>
      cases answer
      have filled : Unbuffered { kernel with mem := memset kernel.mem buff 0 bufflen } := unset
      exact writeFdt_unbuffered filled p _ fun _ _ => rfl
  | rand => exact (randRead_keepsFdt answer).unbuffered unset
  | kbd =>
      have read := kbdRead_unbuffered unset p fd buff
      rw [Device.dvread, Option.some.injEq] at answer
      rwa [answer] at read

theorem kbdHandler_unbuffered (unset : Unbuffered kernel) (p : Slot) (ports : Ports) :
    Unbuffered (kbdHandler kernel p ports) := by
  obtain ⟨kbd, same | closed⟩ := kbdHandler_spec kernel p ports
  · rw [same]
    exact unset
  · rw [closed]
    have unset' : Unbuffered { kernel with kbd := kbd } := unset
    exact dvclose_unbuffered unset' p .kbd 0

theorem serve_unbuffered (unset : Unbuffered kernel)
    (served : serve env kernel p ports request = some d) : Unbuffered d.kernel := by
  cases request with
  | openDevice device_no =>
      cases served
      have opened : Unbuffered (diOpen kernel p device_no).2 := by
        unfold diOpen
        split
        · exact unset
        · exact dvopen_unbuffered unset p _
      exact (KeepsFdt.resume _ p _).unbuffered opened
  | close fd =>
      obtain ⟨⟨value, kernel'⟩, closed, rfl⟩ := Option.map_eq_some_iff.mp served
      refine (KeepsFdt.resume kernel' p value).unbuffered ?_
      rcases diClose_calls closed with ⟨_, rfl⟩ | ⟨_, device, _, answer⟩
      · exact unset
      · have result := dvclose_unbuffered unset p device fd
        rwa [answer] at result
  | read fd buff bufflen =>
      obtain ⟨⟨value, kernel'⟩, read, rest⟩ := Option.bind_eq_some_iff.mp served
      have answered : Unbuffered kernel' := by
        rw [diRead_eq] at read
        split at read
        · obtain ⟨device, _, answer⟩ := Option.bind_eq_some_iff.mp read
          exact dvread_unbuffered unset answer
        · cases read
          exact unset
      simp only at rest
      split at rest
      · exact (KeepsFdt.moves (reschedule_moves rest)).unbuffered answered
      · cases rest
        exact (KeepsFdt.resume kernel' p value).unbuffered answered
  | write fd buff bufflen =>
      obtain ⟨⟨value, kernel'⟩, written, rfl⟩ := Option.map_eq_some_iff.mp served
      exact ((diWrite_keepsFdt written).trans (KeepsFdt.resume kernel' p value)).unbuffered unset
  | ioctl fd command arg3 =>
      obtain ⟨⟨value, kernel'⟩, controlled, rfl⟩ := Option.map_eq_some_iff.mp served
      exact ((diIoctl_keepsFdt controlled).trans (KeepsFdt.resume kernel' p value)).unbuffered unset
  | keyboard =>
      cases served
      exact kbdHandler_unbuffered unset p ports
  | _ => exact (serve_keepsFdt (by trivial) served).unbuffered unset

theorem entered_unbuffered (unset : Unbuffered d.kernel) (trap : Trap) :
    Unbuffered (d.entered trap) :=
  (contextswitch_keepsFdt d.kernel d.current trap).unbuffered unset

theorem reaches_unbuffered {guard : Kernel → Slot → Request → Prop}
    (reaches : Reaches env guard traps d) : Unbuffered d.kernel := by
  obtain ⟨start, booted, _, reached⟩ := reaches
  obtain ⟨heap, keeps⟩ := boot_keepsFdt booted
  have first : Unbuffered start.kernel := keeps.unbuffered fun _ _ => rfl
  have kept : ∀ (state : Dispatcher) trap (next : Dispatcher), Unbuffered state.kernel → True →
      dispatch env state trap = some next → Unbuffered next.kernel := by
    intro state trap next unset _ stepped
    rw [Dispatcher.dispatch_eq] at stepped
    exact serve_unbuffered (entered_unbuffered unset trap) stepped
  exact run_invariant kept first along_true reached

/-! What the copies need. -/

theorem targetsOwned_iff {owned : Slot → Fin MAX_FDT → Set Word}
    (low : ∀ i fd, 0 ∉ owned i fd) (unset : Unbuffered kernel) (request : Request) :
    TargetsOwned env owned kernel p request ↔ LeavesData env kernel p request := by
  have first : ∀ fd n, CopiesData env kernel p fd n request → 0 < n →
      ¬ TargetsOwned env owned kernel p request := by
    intro fd n copies positive targets
    have target := targets fd n copies positive 0 positive
    rw [unset p fd] at target
    exact low p fd target
  cases request with
  | write fd buff bufflen =>
      constructor
      · intro targets calls opened
        by_cases empty : bufflen.toNat = 0
        · exact BitVec.eq_of_toNat_eq empty
        · have positive := Nat.pos_of_ne_zero empty
          exact absurd targets (first (fdIndex fd) _ ⟨calls, opened, rfl, rfl⟩ positive)
      · rintro leaves fd' n ⟨calls, opened, _, count⟩ positive
        rw [← count, leaves calls opened] at positive
        exact absurd positive (by decide)
  | read fd buff bufflen =>
      constructor
      · intro targets reads blocks
        exact first (fdIndex fd) 1 ⟨reads, blocks, rfl, rfl⟩ Nat.one_pos targets
      · rintro leaves fd' n ⟨reads, blocks, _⟩ _
        exact absurd blocks (leaves reads)
  | _ => exact iff_of_true (fun _ _ copies => copies.elim) trivial

/-! What the transfers change in memory. -/

theorem reschedule_mem (popped : reschedule kernel = some d) : d.kernel.mem = kernel.mem := by
  have same := congrArg Kernel.mem (reschedule_unlinked popped)
  exact same

theorem dvwrite_mem (kernel : Kernel) (p : Slot) (device : Device) (fd buff bufflen : Word) :
    (device.dvwrite kernel p fd buff bufflen).2.mem = if device = .zero then
      copied kernel.mem (kernel.dataBuffer p (fdIndex fd)) buff bufflen else kernel.mem := by
  cases device with
  | zero => exact memCpy_eq kernel.mem _ buff bufflen
  | rand => rfl
  | kbd => rfl

theorem kbdRead_mem (kernel : Kernel) (p : Slot) (fd buff : Word)
    (passes : ¬ BlocksReader kernel.kbd) {addr : Word}
    (changed : (kbdRead kernel p fd buff).2.mem addr ≠ kernel.mem addr) :
    atEof kernel.kbd ∧ addr = buff := by
  rw [kbdRead_eq] at changed
  cases found : firstUnread kernel.kbd with
  | none =>
      rw [found] at changed
      exact absurd rfl changed
  | some i =>
      rw [found] at changed
      simp only at changed
      split at changed
      · rename_i eof
        refine ⟨⟨i, found, eof⟩, ?_⟩
        rw [ready_mem] at changed
        by_contra other
        exact changed (if_neg other)
      · rename_i notEof
        split at changed
        · exact absurd rfl changed
        · rename_i notReturn
          exact absurd ⟨i, found, notEof, notReturn⟩ passes

theorem randRead_mem (answer : randRead env kernel buff bufflen = some (value, kernel'))
    (words : 0 ≤ bufflen.toInt → bufflen.toNat % 4 = 0) {addr : Word}
    (changed : kernel'.mem addr ≠ kernel.mem addr) :
    ((addr - buff).toNat : Int) < bufflen.toInt := by
  by_cases nonneg : 0 ≤ bufflen.toInt
  · obtain ⟨bytes, seed, filled⟩ := randRead_words env kernel buff nonneg (words nonneg)
    rw [filled kernel.mem] at answer
    cases answer
    by_contra outside
    have toNat := toInt_toNat nonneg
    exact changed (if_neg fun inside => outside (by bv_omega))
  · have full : ¬ (0 : Word).slt bufflen = true := by
      rw [BitVec.slt_iff_toInt_lt]
      have zero : (0 : Word).toInt = 0 := rfl
      omega
    simp only [randRead, randReadLoop, if_neg full] at answer
    cases answer
    exact absurd rfl changed

theorem write_mem (leaves : LeavesData env kernel p (.write fd buff bufflen))
    (written : diWrite env kernel p fd buff bufflen = some (value, kernel')) :
    kernel'.mem = kernel.mem := by
  rw [diWrite_eq] at written
  split at written
  · rename_i calls
    obtain ⟨device, opened, answer⟩ := Option.map_eq_some_iff.mp written
    have result := dvwrite_mem kernel p device fd buff bufflen
    rw [answer] at result
    rw [result]
    split
    · rename_i isZero
      rw [isZero] at opened
      rw [leaves calls opened, copied_zero]
    · rfl
  · cases written
    rfl

theorem read_mem (leaves : LeavesData env kernel p (.read fd buff bufflen))
    (keeps : KeepsToBuffer env kernel p (.read fd buff bufflen))
    (read : diRead env kernel p fd buff bufflen = some (value, kernel')) {addr : Word}
    (changed : kernel'.mem addr ≠ kernel.mem addr) :
    addr ∈ callerBuffer (.read fd buff bufflen) := by
  have within : ((addr - buff).toNat : Int) < bufflen.toInt := by
    rw [diRead_eq] at read
    split at read
    · rename_i calls
      obtain ⟨device, opened, answer⟩ := Option.bind_eq_some_iff.mp read
      obtain ⟨zero, rand, kbd⟩ := keeps calls
      cases device with
      | zero =>
          cases answer
          have toNat := toInt_toNat (zero opened)
          by_contra outside
          exact changed (if_neg fun inside => outside (by bv_omega))
      | rand => exact randRead_mem answer (rand opened) changed
      | kbd =>
          have result : kbdRead kernel p fd buff = (value, kernel') := Option.some.inj answer
          rw [show kernel' = (kbdRead kernel p fd buff).2 by rw [result]] at changed
          obtain ⟨eof, rfl⟩ := kbdRead_mem kernel p fd buff
            (leaves ⟨calls.1, calls.2, opened⟩) changed
          have room := kbd opened eof
          rw [BitVec.sub_self]
          exact Int.lt_of_lt_of_le (by decide) room
    · cases read
      exact absurd rfl changed
  exact within

theorem transfer_mem (transfer : request.IsTransfer) (leaves : LeavesData env kernel p request)
    (keeps : KeepsToBuffer env kernel p request)
    (served : serve env kernel p ports request = some d) {addr : Word}
    (changed : d.kernel.mem addr ≠ kernel.mem addr) : addr ∈ callerBuffer request := by
  cases request with
  | write fd buff bufflen =>
      obtain ⟨⟨value, kernel'⟩, written, rfl⟩ := Option.map_eq_some_iff.mp served
      have same : kernel'.mem = kernel.mem := write_mem leaves written
      exact absurd (congrFun same addr) changed
  | read fd buff bufflen =>
      obtain ⟨⟨value, kernel'⟩, read, rest⟩ := Option.bind_eq_some_iff.mp served
      simp only at rest
      split at rest
      · rw [reschedule_mem rest] at changed
        exact read_mem leaves keeps read changed
      · cases rest
        exact read_mem leaves keeps read changed
  | _ => exact transfer.elim

/-- No descriptor owns memory that its data buffer points to, if address 0 belongs to none: the
copies of a request have a valid target exactly if it makes none. A read or a write that makes none
changes memory nowhere but in the buffer it is called with, which holds address 0 only if the caller
says so. -/
theorem data_buffers {traps : List Trap} {d : Dispatcher}
    {owned : Slot → Fin MAX_FDT → Set Word} (reaches : Reaches env anyRequest traps d)
    (low : ∀ i fd, 0 ∉ owned i fd) (trap : Trap) :
    (∀ i fd, d.kernel.dataBuffer i fd = 0) ∧
    (TargetsOwned env owned (d.entered trap) d.current (d.request trap) ↔
      LeavesData env (d.entered trap) d.current (d.request trap)) ∧
    ((d.request trap).IsTransfer → LeavesData env (d.entered trap) d.current (d.request trap) →
      KeepsToBuffer env (d.entered trap) d.current (d.request trap) →
      ∀ d', dispatch env d trap = some d' → ∀ addr,
        d'.kernel.mem addr ≠ (d.entered trap).mem addr → addr ∈ callerBuffer (d.request trap)) := by
  have unset := reaches_unbuffered reaches
  refine ⟨unset, targetsOwned_iff low (entered_unbuffered unset trap) _, ?_⟩
  intro transfer leaves keeps d' stepped addr changed
  rw [Dispatcher.dispatch_eq] at stepped
  exact transfer_mem transfer leaves keeps stepped changed

theorem data_buffers_read : ∃ d d', Reaches sampleEnv anyRequest
      (creatorRun ++ [sysopen sampleFrame 0]) d ∧
    dispatch sampleEnv d (sysread sampleFrame 0 0x50000 8) = some d' ∧
    ∀ addr, d'.kernel.mem addr ≠ (d.entered (sysread sampleFrame 0 0x50000 8)).mem addr →
      addr ∈ callerBuffer (.read 0 0x50000 8) := by
  obtain ⟨d, reaches, request, opened, d', stepped, _⟩ := reaches_of_check sampleEnv anyRequest
    (creatorRun ++ [sysopen sampleFrame 0])
    (fun d => d.request (sysread sampleFrame 0 0x50000 8) = .read 0 0x50000 8 ∧
      deviceOf (d.entered (sysread sampleFrame 0 0x50000 8)) d.current 0 = some .zero ∧
      ∃ d' ∈ dispatch sampleEnv d (sysread sampleFrame 0 0x50000 8), True) (by decide +kernel)
  have low : ∀ (i : Slot) (fd : Fin MAX_FDT), (0 : Word) ∉ (∅ : Set Word) := fun _ _ => id
  obtain ⟨_, _, changes⟩ := data_buffers reaches low (sysread sampleFrame 0 0x50000 8)
  rw [request] at changes
  have leaves : LeavesData sampleEnv (d.entered (sysread sampleFrame 0 0x50000 8)) d.current
      (.read 0 0x50000 8) := by
    intro reads
    exact absurd (opened.symm.trans reads.2.2) (by simp)
  have keeps : KeepsToBuffer sampleEnv (d.entered (sysread sampleFrame 0 0x50000 8)) d.current
      (.read 0 0x50000 8) :=
    fun _ => ⟨fun _ => by decide, fun _ _ => by decide, fun kbd =>
      absurd (opened.symm.trans kbd) (by simp)⟩
  exact ⟨d, d', reaches, stepped, changes trivial leaves keeps d' stepped⟩

/-- Sixteen bytes are written to the zero device: the first of them, a part of the arguments of the
call, is stored at address 0. -/
theorem data_buffers_broken : ∃ d d', Reaches sampleEnv anyRequest
      (creatorRun ++ [sysopen sampleFrame 0]) d ∧
    d.request (syswrite sampleFrame 0 0x80014 16) = .write 0 0x80014 16 ∧
    dispatch sampleEnv d (syswrite sampleFrame 0 0x80014 16) = some d' ∧
    (d.entered (syswrite sampleFrame 0 0x80014 16)).mem 0 = 0 ∧ d'.kernel.mem 0 = 0x14 ∧
    ∀ owned : Slot → Fin MAX_FDT → Set Word, (∀ i fd, 0 ∉ owned i fd) →
      ¬ TargetsOwned sampleEnv owned (d.entered (syswrite sampleFrame 0 0x80014 16)) d.current
        (.write 0 0x80014 16) := by
  obtain ⟨d, reaches, request, ⟨calls, opened⟩, before, d', stepped, after⟩ :=
    reaches_of_check sampleEnv anyRequest (creatorRun ++ [sysopen sampleFrame 0])
      (fun d => d.request (syswrite sampleFrame 0 0x80014 16) = .write 0 0x80014 16 ∧
        (CallsDevice sampleEnv (d.entered (syswrite sampleFrame 0 0x80014 16)) d.current 0 0x80014 ∧
          deviceOf (d.entered (syswrite sampleFrame 0 0x80014 16)) d.current 0 = some .zero) ∧
        (d.entered (syswrite sampleFrame 0 0x80014 16)).mem 0 = 0 ∧
        ∃ d' ∈ dispatch sampleEnv d (syswrite sampleFrame 0 0x80014 16), d'.kernel.mem 0 = 0x14)
      (by decide +kernel)
  refine ⟨d, d', reaches, request, stepped, before, after, fun owned low targets => ?_⟩
  have unset := entered_unbuffered (reaches_unbuffered reaches)
    (syswrite sampleFrame 0 0x80014 16)
  have empty := (targetsOwned_iff low unset _).mp targets calls opened
  exact absurd empty (by decide)

end XerosKernel
