import XerosKernel.Runs
import XerosKernel.SignalFrames
import XerosKernel.SyscallCore

/-!
The two halves of a system call. A stub pushes its arguments as consecutive words and the case of
`dispatch` for its request reads them back; `sysioctl` pushes the address of its last argument.
-/

namespace XerosKernel

/-- A stub of `syscall.c` with the values that the application passes to it. -/
inductive Stub
  | syscreate (fp stack : Word)
  | sysyield
  | sysstop
  | sysgetpid
  | sysputs (str : Word)
  | syssleep (t : Word)
  | syskill (pid signum : Word)
  | sysgetcputimes (ps : Word)
  | syssignal (signum handler : Word)
  | syssigreturn (old_sp old_ret sigLvl : Word)
  | syswait (pid : Word)
  | sysopen (device_no : Word)
  | sysclose (fd : Word)
  | syswrite (fd buff bufflen : Word)
  | sysread (fd buff bufflen : Word)
  | sysioctl (fd command v : Word)

namespace Stub

/-- How the stub enters the kernel, if it does. -/
def enter (frame : UserFrame) : Stub → Option Trap
  | syscreate fp stack => some (XerosKernel.syscreate frame fp stack)
  | sysyield => some (XerosKernel.sysyield frame)
  | sysstop => some (XerosKernel.sysstop frame)
  | sysgetpid => some (XerosKernel.sysgetpid frame)
  | sysputs str => some (XerosKernel.sysputs frame str)
  | syssleep t => some (XerosKernel.syssleep frame t)
  | syskill pid signum => some (XerosKernel.syskill frame pid signum)
  | sysgetcputimes ps => some (XerosKernel.sysgetcputimes frame ps)
  | syssignal signum handler => XerosKernel.syssignal frame signum handler
  | syssigreturn old_sp old_ret sigLvl =>
      some (XerosKernel.syssigreturn frame old_sp old_ret sigLvl)
  | syswait pid => some (XerosKernel.syswait frame pid)
  | sysopen device_no => some (XerosKernel.sysopen frame device_no)
  | sysclose fd => some (XerosKernel.sysclose frame fd)
  | syswrite fd buff bufflen => some (XerosKernel.syswrite frame fd buff bufflen)
  | sysread fd buff bufflen => some (XerosKernel.sysread frame fd buff bufflen)
  | sysioctl fd command v => some (XerosKernel.sysioctl frame fd command v)

/-- The request that the application means: its own values, in order. -/
def meant : Stub → Request
  | syscreate fp stack => .create fp stack
  | sysyield => .yield
  | sysstop => .stop
  | sysgetpid => .getpid
  | sysputs str => .puts str
  | syssleep t => .sleep t
  | syskill pid signum => .kill pid signum
  | sysgetcputimes ps => .cputimes ps
  | syssignal signum handler => .sighandler signum handler
  | syssigreturn old_sp old_ret sigLvl => .sigreturn old_sp old_ret sigLvl
  | syswait pid => .wait pid
  | sysopen device_no => .openDevice device_no
  | sysclose fd => .close fd
  | syswrite fd buff bufflen => .write fd buff bufflen
  | sysread fd buff bufflen => .read fd buff bufflen
  | sysioctl fd command v => .ioctl fd command v

def received (frame : UserFrame) : Stub → Request
  | sysioctl fd command _ => .ioctl fd command frame.ioctlAp
  | stub => stub.meant

/-- A last argument of `sysioctl` is the address at which it lies itself. -/
def PassesValues (frame : UserFrame) : Stub → Prop
  | sysioctl _ _ v => v = frame.ioctlAp
  | _ => True

theorem received_meant {frame : UserFrame} {stub : Stub} :
    stub.received frame = stub.meant ↔ stub.PassesValues frame := by
  cases stub with
  | sysioctl fd command v =>
      simp only [received, meant, PassesValues, Request.ioctl.injEq, true_and]
      exact eq_comm
  | _ => exact iff_of_true rfl trivial

end Stub

variable {mem : Memory} {ap : Word} {args : List Word} {index : Nat}

theorem loadWord_pushArgs (fits : args.length ≤ 2 ^ 30) (inside : index < args.length) :
    loadWord (pushArgs mem ap args) (ap + 4 * BitVec.ofNat 32 index) = args[index] := by
  induction args generalizing ap index with
  | nil => simp at inside
  | cons word rest ih =>
      rw [List.length_cons] at fits inside
      cases index with
      | zero =>
          have start : ap + 4 * BitVec.ofNat 32 0 = ap := by bv_omega
          rw [start]
          exact loadWord_storeWord _ ap word
      | succ index =>
          have offset : (4 * BitVec.ofNat 32 (index + 1) : Word).toNat = 4 * (index + 1) := by
            rw [BitVec.toNat_mul, BitVec.toNat_ofNat]
            change 4 * ((index + 1) % 4294967296) % 4294967296 = _
            omega
          have shifted : ap + 4 * BitVec.ofNat 32 (index + 1) =
              ap + 4 + 4 * BitVec.ofNat 32 index := by
            bv_omega
          have behind : 4 ≤ ap + 4 * BitVec.ofNat 32 (index + 1) - ap := by
            generalize 4 * BitVec.ofNat 32 (index + 1) = distance at offset
            bv_omega
          have before : 4 ≤ ap - (ap + 4 * BitVec.ofNat 32 (index + 1)) := by
            generalize 4 * BitVec.ofNat 32 (index + 1) = distance at offset
            bv_omega
          rw [pushArgs, loadWord_storeWord_other behind before, shifted]
          exact ih (by omega) (by omega)

theorem vaArg_syscall (d : Dispatcher) (frame : UserFrame) (req : Word) (args : List Word)
    (index : Nat) (fits : args.length ≤ 2 ^ 30) (inside : index < args.length) :
    vaArg (d.entered (syscall frame req args))
      ((d.entered (syscall frame req args)).proctab d.current).args index = args[index] := by
  simp only [Dispatcher.entered, contextswitch, syscall, vaArg, Kernel.modify_proctab, if_true,
    Kernel.modify_mem]
  exact loadWord_pushArgs fits inside

section Arity

variable (d : Dispatcher) (frame : UserFrame) (req : Word)

theorem read_one {request : Word → Request} {a : Word}
    (decodes : ∀ kernel p, decode kernel p req =
      request (vaArg kernel (kernel.proctab p).args 0)) :
    d.request (syscall frame req [a]) = request a := by
  have first := vaArg_syscall d frame req [a] 0 (by simp) (by simp)
  exact (decodes _ d.current).trans (congrArg request first)

theorem read_two {request : Word → Word → Request} {a b : Word}
    (decodes : ∀ kernel p, decode kernel p req =
      request (vaArg kernel (kernel.proctab p).args 0) (vaArg kernel (kernel.proctab p).args 1)) :
    d.request (syscall frame req [a, b]) = request a b := by
  have first := vaArg_syscall d frame req [a, b] 0 (by simp) (by simp)
  have second := vaArg_syscall d frame req [a, b] 1 (by simp) (by simp)
  exact (decodes _ d.current).trans (congrArg₂ request first second)

theorem read_three {request : Word → Word → Word → Request} {a b c : Word}
    (decodes : ∀ kernel p, decode kernel p req =
      request (vaArg kernel (kernel.proctab p).args 0) (vaArg kernel (kernel.proctab p).args 1)
        (vaArg kernel (kernel.proctab p).args 2)) :
    d.request (syscall frame req [a, b, c]) = request a b c := by
  have first := vaArg_syscall d frame req [a, b, c] 0 (by simp) (by simp)
  have second := vaArg_syscall d frame req [a, b, c] 1 (by simp) (by simp)
  have third := vaArg_syscall d frame req [a, b, c] 2 (by simp) (by simp)
  refine (decodes _ d.current).trans ?_
  rw [first, second, third]
  rfl

end Arity

theorem stub_request (d : Dispatcher) {frame : UserFrame} {stub : Stub} {trap : Trap}
    (entered : stub.enter frame = some trap) : d.request trap = stub.received frame := by
  cases stub with
  | sysyield =>
      cases entered
      rfl
  | sysstop =>
      cases entered
      rfl
  | sysgetpid =>
      cases entered
      rfl
  | sysputs =>
      cases entered
      exact read_one d frame _ fun _ _ => rfl
  | syssleep =>
      cases entered
      exact read_one d frame _ fun _ _ => rfl
  | sysgetcputimes =>
      cases entered
      exact read_one d frame _ fun _ _ => rfl
  | syswait =>
      cases entered
      exact read_one d frame _ fun _ _ => rfl
  | sysopen =>
      cases entered
      exact read_one d frame _ fun _ _ => rfl
  | sysclose =>
      cases entered
      exact read_one d frame _ fun _ _ => rfl
  | syscreate =>
      cases entered
      exact read_two d frame _ fun _ _ => rfl
  | syskill =>
      cases entered
      exact read_two d frame _ fun _ _ => rfl
  | syssignal signum handler =>
      simp only [Stub.enter, syssignal] at entered
      split at entered
      · cases entered
      · cases entered
        exact read_two d frame _ fun _ _ => rfl
  | syssigreturn =>
      cases entered
      exact read_three d frame _ fun _ _ => rfl
  | syswrite =>
      cases entered
      exact read_three d frame _ fun _ _ => rfl
  | sysread =>
      cases entered
      exact read_three d frame _ fun _ _ => rfl
  | sysioctl =>
      cases entered
      exact read_three d _ _ fun _ _ => rfl

theorem serve_ioctl {env : Env} {kernel : Kernel} {p : Slot} {ports : Ports} {device : Device}
    {fd command arg3 : Word} (valid : ¬ invalidFd kernel p fd)
    (isDevice : deviceOf kernel p fd = some device) :
    serve env kernel p ports (.ioctl fd command arg3) =
      some (resume p (device.dvioctl env kernel command arg3)) := by
  simp only [serve, diIoctl, if_neg valid, isDevice, Option.map_some]

/-- The kernel serves the request with the values that the application passed, in order, exactly
if no `sysioctl` is involved or its last argument is its own address, which is what the device
gets. -/
theorem arguments_round_trip (env : Env) (d : Dispatcher) {frame : UserFrame} {stub : Stub}
    {trap : Trap} (entered : stub.enter frame = some trap) :
    dispatch env d trap =
        serve env (d.entered trap) d.current trap.ports (stub.received frame) ∧
      (d.request trap = stub.meant ↔ stub.PassesValues frame) ∧
      ∀ fd command v device, stub = .sysioctl fd command v →
        ¬ invalidFd (d.entered trap) d.current fd →
        deviceOf (d.entered trap) d.current fd = some device →
        dispatch env d trap =
          some (resume d.current (device.dvioctl env (d.entered trap) command frame.ioctlAp)) := by
  have request := stub_request d entered
  refine ⟨?_, ?_, ?_⟩
  · rw [Dispatcher.dispatch_eq, request]
  · rw [request]
    exact Stub.received_meant
  · rintro fd command v device rfl valid isDevice
    rw [Dispatcher.dispatch_eq, request]
    exact serve_ioctl valid isDevice

theorem arguments_round_trip_write : ∃ d, Reaches sampleEnv anyRequest creatorRun d ∧
    d.request (syswrite sampleFrame 1 0x80020 4) = .write 1 0x80020 4 := by
  obtain ⟨d, reaches, _⟩ := reaches_of_check sampleEnv anyRequest creatorRun (fun _ => True)
    (by decide +kernel)
  have entered : Stub.enter sampleFrame (.syswrite 1 0x80020 4) =
      some (syswrite sampleFrame 1 0x80020 4) := rfl
  exact ⟨d, reaches, (arguments_round_trip sampleEnv d entered).2.1.mpr trivial⟩

/-- A process opens the keyboard and asks for the letter a as its end-of-file character; what it
gets is the address of the argument. -/
theorem sysioctl_address : ∃ d d', Reaches sampleEnv anyRequest
      (creatorRun ++ [sysopen sampleFrame 2]) d ∧
    dispatch sampleEnv d (sysioctl sampleFrame 0 53 97) = some d' ∧
    d.request (sysioctl sampleFrame 0 53 97) ≠ .ioctl 0 53 97 ∧
    d'.kernel.kbd.eof = sampleFrame.ioctlAp := by
  obtain ⟨d, reaches, d', stepped, different, eof⟩ := reaches_of_check sampleEnv anyRequest
    (creatorRun ++ [sysopen sampleFrame 2])
    (fun d => ∃ d' ∈ dispatch sampleEnv d (sysioctl sampleFrame 0 53 97),
      d.request (sysioctl sampleFrame 0 53 97) ≠ .ioctl 0 53 97 ∧
      d'.kernel.kbd.eof = sampleFrame.ioctlAp) (by decide +kernel)
  exact ⟨d, d', reaches, stepped, different, eof⟩

end XerosKernel
