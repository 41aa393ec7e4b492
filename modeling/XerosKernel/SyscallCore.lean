import XerosKernel.DispatchCore

/-!
The application half of a system call, `syscall.c`: the stubs push their arguments as
consecutive words, and `syscall` enters the kernel with the request number in `eax` and the
address of the arguments in `edx`.
-/

namespace XerosKernel

/-- Where a stub runs: its stack pointer, the address `va_start` yields in `syscall`, the
address it yields in `sysioctl`, and the memory of the process. -/
structure UserFrame where
  esp : Word
  ap : Word
  ioctlAp : Word
  mem : Memory

def pushArgs (mem : Memory) (ap : Word) : List Word → Memory
  | [] => mem
  | word :: rest => storeWord (pushArgs mem (ap + 4) rest) ap word

def syscall (frame : UserFrame) (req : Word) (args : List Word) : Trap :=
  { trapNo := .kernel, esp := frame.esp, eax := req, edx := frame.ap,
    mem := pushArgs frame.mem frame.ap args, ports := ⟨0, 0⟩ }

def syscreate (frame : UserFrame) (fp stack : Word) : Trap := syscall frame 22 [fp, stack]
def sysyield (frame : UserFrame) : Trap := syscall frame 11 []
def sysstop (frame : UserFrame) : Trap := syscall frame 10 []
def sysgetpid (frame : UserFrame) : Trap := syscall frame 144 []
def sysputs (frame : UserFrame) (str : Word) : Trap := syscall frame 155 [str]
def syssleep (frame : UserFrame) (t : Word) : Trap := syscall frame 166 [t]
def syskill (frame : UserFrame) (pid signum : Word) : Trap := syscall frame 177 [pid, signum]
def sysgetcputimes (frame : UserFrame) (ps : Word) : Trap := syscall frame 178 [ps]

/-- `none` where the stub returns 0 without entering the kernel. -/
def syssignal (frame : UserFrame) (signum handler : Word) : Option Trap :=
  if signum.toInt < 0 ∨ 31 ≤ signum.toInt then none
  else some (syscall frame 179 [signum, handler])

def syssigreturn (frame : UserFrame) (old_sp old_ret sigLvl : Word) : Trap :=
  syscall frame 180 [old_sp, old_ret, sigLvl]

def syswait (frame : UserFrame) (pid : Word) : Trap := syscall frame 181 [pid]
def sysopen (frame : UserFrame) (device_no : Word) : Trap := syscall frame 182 [device_no]
def sysclose (frame : UserFrame) (fd : Word) : Trap := syscall frame 183 [fd]

def syswrite (frame : UserFrame) (fd buff bufflen : Word) : Trap :=
  syscall frame 184 [fd, buff, bufflen]

def sysread (frame : UserFrame) (fd buff bufflen : Word) : Trap :=
  syscall frame 185 [fd, buff, bufflen]

/-- The third argument of the stub, `v`, lies at `ioctlAp`; what is passed on is its address. -/
def sysioctl (frame : UserFrame) (fd command v : Word) : Trap :=
  syscall { frame with mem := storeWord frame.mem frame.ioctlAp v } 186
    [fd, command, frame.ioctlAp]

end XerosKernel
