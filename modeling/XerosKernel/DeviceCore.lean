import XerosKernel.SchedulerCore

/-!
The device drivers `zerorand.c` and `kbd.c` and the device independent calls of
`di_calls.c`. An operation returns the value of the C function and the kernel after it.
-/

namespace XerosKernel

/-- The device numbers `initproc` writes into `devtable`. -/
def Device.dvnum : Device → Word
  | .zero => 0
  | .rand => 1
  | .kbd => 2

def devtable : List Device := [.zero, .rand, .kbd]

def fdIndex (fd : Word) : Fin MAX_FDT := Fin.ofNat MAX_FDT fd.toNat

namespace Kernel

def writeFdt (kernel : Kernel) (p : Slot) (fd : Fin MAX_FDT) (write : FdStruct → FdStruct) :
    Kernel :=
  kernel.modify p fun pcb =>
    { pcb with fdt := fun i => if i = fd then write (pcb.fdt i) else pcb.fdt i }

end Kernel

/-- The body that the three `dvopen` functions share: the first closed descriptor of `p`. -/
def openFirst (kernel : Kernel) (p : Slot) (device : Device) : Word × Kernel :=
  match (List.finRange MAX_FDT).find? fun i => ((kernel.proctab p).fdt i).status = .close with
  | none => (-1, kernel)
  | some i => (BitVec.ofNat 32 i, kernel.writeFdt p i fun fdStruct =>
      { fdStruct with status := .opened, device := some device })

def closeDescriptor (kernel : Kernel) (p : Slot) (fd : Word) : Kernel :=
  kernel.writeFdt p (fdIndex fd) fun fdStruct =>
    { fdStruct with device := none, status := .close }

/-! The zero device. -/

def zeroOpen (kernel : Kernel) (p : Slot) : Word × Kernel := openFirst kernel p .zero

def zeroClose (kernel : Kernel) (p : Slot) (fd : Word) : Word × Kernel :=
  (0, closeDescriptor kernel p fd)

def zeroRead (kernel : Kernel) (p : Slot) (fd buff bufflen : Word) : Word × Kernel :=
  let kernel := { kernel with mem := memset kernel.mem buff 0 bufflen }
  (bufflen, kernel.writeFdt p (fdIndex fd) fun fdStruct => { fdStruct with dataBuffer := 0 })

def zeroWrite (kernel : Kernel) (p : Slot) (fd buff bufflen : Word) : Word × Kernel :=
  let dataBuffer := ((kernel.proctab p).fdt (fdIndex fd)).dataBuffer
  (bufflen, { kernel with mem := memCpy kernel.mem dataBuffer buff bufflen })

def zeroIoctl (kernel : Kernel) : Word × Kernel := (-1, kernel)

/-! The random device. -/

def randOpen (kernel : Kernel) (p : Slot) : Word × Kernel := openFirst kernel p .rand

def randClose (kernel : Kernel) (p : Slot) (fd : Word) : Word × Kernel :=
  (0, closeDescriptor kernel p fd)

/-- `memset(buff + i, rand() % 255, n)`. -/
def randFill (env : Env) (kernel : Kernel) (addr n : Word) : Kernel :=
  let (value, seed) := env.rand kernel.seed
  { kernel with mem := memset kernel.mem addr ((value.srem 255).truncate 8) n, seed := seed }

/-- The `while` loop; `i` overflows after `2 ^ 29` rounds and the loop never ends. -/
def randReadLoop (env : Env) (buff bufflen : Word) :
    Nat → Kernel → Word → Word → Option (Kernel × Word × Word)
  | 0, _, _, _ => none
  | fuel + 1, kernel, i, bytesRead =>
      if i.slt bufflen then
        randReadLoop env buff bufflen fuel (randFill env kernel (buff + i) 4) (i + 4)
          (bytesRead + 4)
      else some (kernel, i, bytesRead)

def randRead (env : Env) (kernel : Kernel) (buff bufflen : Word) : Option (Word × Kernel) :=
  match randReadLoop env buff bufflen (2 ^ 29 + 1) kernel 0 0 with
  | none => none
  | some (kernel, i, bytesRead) =>
      if i.slt bufflen then
        let diff := bufflen - i
        some (bytesRead + diff, randFill env kernel (buff + i) diff)
      else some (bytesRead, kernel)

def randWrite (kernel : Kernel) : Word × Kernel := (-1, kernel)

def randIoctl (env : Env) (kernel : Kernel) (command seed : Word) : Word × Kernel :=
  if command ≠ 81 then (-1, kernel) else (0, { kernel with seed := env.srand seed })

/-! The keyboard. -/

def KEY_UP : Byte := 0x80
def LSHIFT : Byte := 0x2a
def RSHIFT : Byte := 0x36
def LMETA : Byte := 0x38
def LCTL : Byte := 0x1d
def CAPSL : Byte := 0x3a
def EXTESC : Byte := 0xe0
def INCTL : Word := 0x01
def INSHIFT : Word := 0x02
def CAPSLOCK : Word := 0x04
def INMETA : Word := 0x08
def EXTENDED : Word := 0x10
def NOCHAR : Word := 256

def kbcode : List Word :=
  [0, 27, 49, 50, 51, 52, 53, 54, 55, 56, 57, 48, 45, 61, 8, 9, 113, 119, 101, 114,
    116, 121, 117, 105, 111, 112, 91, 93, 10, 0, 97, 115, 100, 102, 103, 104, 106, 107, 108, 59,
    39, 96, 0, 92, 122, 120, 99, 118, 98, 110, 109, 44, 46, 47, 0, 0, 0, 32]

def kbshift : List Word :=
  [0, 0, 33, 64, 35, 36, 37, 94, 38, 42, 40, 41, 95, 43, 8, 9, 81, 87, 69, 82,
    84, 89, 85, 73, 79, 80, 123, 125, 10, 0, 65, 83, 68, 70, 71, 72, 74, 75, 76, 58,
    34, 126, 0, 124, 90, 88, 67, 86, 66, 78, 77, 60, 62, 63, 0, 0, 0, 32]

def kbctl : List Word :=
  [0, 0, 0, 0, 0, 0, 0, 0, 0, 0, 0, 0, 31, 0, 8, 9, 17, 23, 5, 18,
    20, 25, 21, 9, 15, 16, 27, 29, 10, 0, 1, 19, 4, 6, 7, 8, 10, 11, 12, 0,
    0, 0, 0, 28, 26, 24, 3, 22, 2, 14, 13]

def extchar (state : Word) : Word × Word := (NOCHAR, state &&& ~~~EXTENDED)

def kbtoaKeyUp (state : Word) (code : Byte) : Word :=
  let key := code &&& 0x7f
  if key = LSHIFT ∨ key = RSHIFT then state &&& ~~~INSHIFT
  else if key = CAPSL then state &&& ~~~CAPSLOCK
  else if key = LCTL then state &&& ~~~INCTL
  else if key = LMETA then state &&& ~~~INMETA
  else state

/-- The part of `kbtoa` behind the special keys. -/
def kbtoaChar (state : Word) (code : Byte) : Word :=
  let index := code.toNat
  let held (flag : Word) : Bool := state &&& flag ≠ 0
  let ch := NOCHAR
  let ch := if index < kbcode.length then
    (if held CAPSLOCK then kbshift else kbcode).getD index 0 else ch
  if held INSHIFT ∧ kbshift.length ≤ index then NOCHAR
  else
    let ch := if held INSHIFT then
      (if held CAPSLOCK then kbcode else kbshift).getD index 0 else ch
    if held INCTL ∧ kbctl.length ≤ index then NOCHAR
    else
      let ch := if held INCTL then kbctl.getD index 0 else ch
      if held INMETA then ch + 0x80 else ch

def kbtoa (state : Word) (code : Byte) : Word × Word :=
  if state &&& EXTENDED ≠ 0 then extchar state
  else if code &&& KEY_UP ≠ 0 then (NOCHAR, kbtoaKeyUp state code)
  else if code = LSHIFT ∨ code = RSHIFT then (NOCHAR, state ||| INSHIFT)
  else if code = CAPSL then (NOCHAR, state ||| CAPSLOCK)
  else if code = LCTL then (NOCHAR, state ||| INCTL)
  else if code = LMETA then (NOCHAR, state ||| INMETA)
  else if code = EXTESC then (NOCHAR, state ||| EXTENDED)
  else (kbtoaChar state code, state)

/-- The loop that writes to the first hole of `kbdbuff`. -/
def fillHole (kbdbuff : Fin 4 → Byte) (value : Byte) : Fin 4 → Byte :=
  match (List.finRange 4).find? fun i => kbdbuff i = 0 with
  | none => kbdbuff
  | some hole => fun i => if i = hole then value else kbdbuff i

namespace Keyboard

def clearSlot (kbd : Keyboard) (i : Fin 4) : Keyboard :=
  { kbd with kbdbuff := fun j => if j = i then 0 else kbd.kbdbuff j }

end Keyboard

def kbdOpen (kernel : Kernel) (p : Slot) : Word × Kernel :=
  let (fd, opened) := openFirst kernel p .kbd
  if fd = -1 then (fd, opened)
  else (fd, { opened with kbd := { opened.kbd with irqEnabled := true } })

def kbdClose (kernel : Kernel) (p : Slot) (fd : Word) : Word × Kernel :=
  let kernel := { kernel with kbd := { kernel.kbd with echo := true, irqEnabled := false } }
  (0, closeDescriptor kernel p fd)

structure Ports where
  port64 : Byte
  port60 : Byte

def kbdHandler (kernel : Kernel) (p : Slot) (ports : Ports) : Kernel :=
  if ports.port64 &&& 0x01 ≠ 0 then
    let kbd := kernel.kbd
    let (asciiCode, state) := kbtoa kbd.state ports.port60
    let kbd := { kbd with state := state }
    if asciiCode = kbd.eof then
      let kbd := { kbd with kbdbuff := fillHole kbd.kbdbuff (kbd.eof.truncate 8) }
      (kbdClose { kernel with kbd := kbd } p 0).2
    else if asciiCode = 0x09 then { kernel with kbd := { kbd with echo := !kbd.echo } }
    else
      { kernel with
        kbd := { kbd with kbdbuff := fillHole kbd.kbdbuff (kbd.eof.truncate 8) } }
  else kernel

def kbdReadLoop (kernel : Kernel) (p : Slot) (fd buff : Word) : List (Fin 4) → Word × Kernel
  | [] => (0, kernel)
  | i :: rest =>
      let input := kernel.kbd.kbdbuff i
      if input = 0 then kbdReadLoop kernel p fd buff rest
      else if input.signExtend 32 = kernel.kbd.eof then
        let kernel := { kernel with
          mem := storeByte kernel.mem buff input, kbd := kernel.kbd.clearSlot i }
        (1, ready (kbdClose kernel p fd).2 p)
      else if input = 0x0D then (0, kernel)
      else
        let kernel := { kernel with
          mem := storeByte kernel.mem buff input, kbd := kernel.kbd.clearSlot i }
        let dataBuffer := ((kernel.proctab p).fdt (fdIndex fd)).dataBuffer
        let kernel := { kernel with
          mem := storeByte kernel.mem dataBuffer (kernel.kbd.kbdbuff i) }
        (-3, kernel.modify p fun pcb => { pcb with state := .blocked })

def kbdRead (kernel : Kernel) (p : Slot) (fd buff : Word) : Word × Kernel :=
  if ∀ i, kernel.kbd.kbdbuff i = 0 then (-1, kernel)
  else kbdReadLoop kernel p fd buff (List.finRange 4)

def kbdWrite (kernel : Kernel) : Word × Kernel := (-1, kernel)

def kbdIoctl (kernel : Kernel) (command arg3 : Word) : Word × Kernel :=
  if command = 53 then (0, { kernel with kbd := { kernel.kbd with eof := arg3 } })
  else if command = 55 then (0, { kernel with kbd := { kernel.kbd with echo := false } })
  else if command = 56 then (0, { kernel with kbd := { kernel.kbd with echo := true } })
  else (-1, kernel)

/-! The device table and the device independent calls. -/

namespace Device

def dvopen (device : Device) (kernel : Kernel) (p : Slot) : Word × Kernel :=
  match device with
  | .zero => zeroOpen kernel p
  | .rand => randOpen kernel p
  | .kbd => kbdOpen kernel p

def dvclose (device : Device) (kernel : Kernel) (p : Slot) (fd : Word) : Word × Kernel :=
  match device with
  | .zero => zeroClose kernel p fd
  | .rand => randClose kernel p fd
  | .kbd => kbdClose kernel p fd

def dvread (env : Env) (device : Device) (kernel : Kernel) (p : Slot) (fd buff bufflen : Word) :
    Option (Word × Kernel) :=
  match device with
  | .zero => some (zeroRead kernel p fd buff bufflen)
  | .rand => randRead env kernel buff bufflen
  | .kbd => some (kbdRead kernel p fd buff)

def dvwrite (device : Device) (kernel : Kernel) (p : Slot) (fd buff bufflen : Word) :
    Word × Kernel :=
  match device with
  | .zero => zeroWrite kernel p fd buff bufflen
  | .rand => randWrite kernel
  | .kbd => kbdWrite kernel

def dvioctl (env : Env) (device : Device) (kernel : Kernel) (command arg3 : Word) :
    Word × Kernel :=
  match device with
  | .zero => zeroIoctl kernel
  | .rand => randIoctl env kernel command arg3
  | .kbd => kbdIoctl kernel command arg3

end Device

/-- The test that opens `di_close`, `di_read`, `di_write` and `di_ioctl`. -/
def invalidFd (kernel : Kernel) (p : Slot) (fd : Word) : Prop :=
  fd.toInt < 0 ∨ 3 < fd.toInt ∨ ((kernel.proctab p).fdt (fdIndex fd)).status = .close

instance (kernel : Kernel) (p : Slot) (fd : Word) : Decidable (invalidFd kernel p fd) :=
  inferInstanceAs (Decidable (_ ∨ _ ∨ _))

def invalidBuffer (env : Env) (buff : Word) : Prop :=
  (env.HOLESTART ≤ buff ∧ buff ≤ env.HOLEEND) ∨ env.maxaddr < buff

instance (env : Env) (buff : Word) : Decidable (invalidBuffer env buff) :=
  inferInstanceAs (Decidable (_ ∨ _))

/-- `fdStruct->device`; calling through a null device is undefined, a `none` below. -/
def deviceOf (kernel : Kernel) (p : Slot) (fd : Word) : Option Device :=
  ((kernel.proctab p).fdt (fdIndex fd)).device

def diOpen (kernel : Kernel) (p : Slot) (device_no : Word) : Word × Kernel :=
  match devtable.find? fun device => device.dvnum = device_no with
  | none => (-1, kernel)
  | some device => device.dvopen kernel p

def diClose (kernel : Kernel) (p : Slot) (fd : Word) : Option (Word × Kernel) :=
  if invalidFd kernel p fd then some (-1, kernel)
  else (deviceOf kernel p fd).map fun device => device.dvclose kernel p fd

def diRead (env : Env) (kernel : Kernel) (p : Slot) (fd buff bufflen : Word) :
    Option (Word × Kernel) :=
  if invalidFd kernel p fd then some (-1, kernel)
  else if invalidBuffer env buff then some (-1, kernel)
  else (deviceOf kernel p fd).bind fun device => device.dvread env kernel p fd buff bufflen

def diWrite (env : Env) (kernel : Kernel) (p : Slot) (fd buff bufflen : Word) :
    Option (Word × Kernel) :=
  if invalidFd kernel p fd then some (-1, kernel)
  else if invalidBuffer env buff then some (-1, kernel)
  else (deviceOf kernel p fd).map fun device => device.dvwrite kernel p fd buff bufflen

def diIoctl (env : Env) (kernel : Kernel) (p : Slot) (fd command arg3 : Word) :
    Option (Word × Kernel) :=
  if invalidFd kernel p fd then some (-1, kernel)
  else (deviceOf kernel p fd).map fun device => device.dvioctl env kernel command arg3

end XerosKernel
