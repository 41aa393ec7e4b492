import XerosKernel.DispatchCore

/-!
The message passing of `msg.c`. Its cases of `dispatch` are not in the repository: a call is
taken to be made for the current process, to store its value in the caller's `ret` and to be
followed by `next()`.
-/

namespace XerosKernel

/-- The loop of `send`: the last process of the chain that starts at `temp`. -/
def lastSender (kernel : Kernel) : Nat → Slot → Option Slot
  | 0, _ => none
  | fuel + 1, temp =>
      match (kernel.proctab temp).senderNext with
      | none => some temp
      | some behind => lastSender kernel fuel behind

/-- The loop of `recv`; `none` where it never ends or runs into the null pointer. -/
def senderBefore (kernel : Kernel) (pid : Word) : Nat → Slot → Option Slot
  | 0, _ => none
  | fuel + 1, temp =>
      match (kernel.proctab temp).senderNext with
      | none => none
      | some behind =>
          if (kernel.proctab behind).pid = pid then some temp
          else senderBefore kernel pid fuel behind

def minLen (first second : Word) : Word := if first.slt second then first else second

def send (kernel : Kernel) (srcPcb dstPcb : Slot) (buffer buffer_len : Word) :
    Option (Word × Kernel) :=
  let dst := kernel.proctab dstPcb
  if (dst.state = .blockedRecv ∧ dst.waitingPid = (kernel.proctab srcPcb).pid) ∨
      dst.waitingPid = -1 then
    let minLen := minLen buffer_len dst.buffer_len
    let kernel := { kernel with mem := memCpy kernel.mem dst.buffer buffer minLen }
    let kernel := kernel.modify dstPcb fun pcb => { pcb with ret := minLen }
    some (minLen, ready (ready kernel dstPcb) srcPcb)
  else
    let kernel := kernel.modify srcPcb fun pcb =>
      { pcb with
        state := .blockedSend, waitingPid := dst.pid, buffer_len := buffer_len, buffer := buffer }
    match (kernel.proctab dstPcb).senderQueue with
    | none => some (0, kernel.modify dstPcb fun pcb => { pcb with senderQueue := some srcPcb })
    | some first =>
        match lastSender kernel loopFuel first with
        | none => none
        | some temp =>
            some (0, kernel.modify temp fun pcb => { pcb with senderNext := some srcPcb })

def recv (kernel : Kernel) (srcPcb fromPcb : Slot) (buffer buffer_len : Word) :
    Option (Word × Kernel) :=
  let sender := kernel.proctab fromPcb
  if sender.state = .blockedSend ∧ sender.waitingPid = (kernel.proctab srcPcb).pid then
    let minLen := minLen buffer_len sender.buffer_len
    let kernel := { kernel with mem := memCpy kernel.mem buffer sender.buffer minLen }
    let kernel := kernel.modify fromPcb fun pcb => { pcb with ret := minLen }
    let kernel := ready (ready kernel fromPcb) srcPcb
    match (kernel.proctab srcPcb).senderQueue with
    | none => none
    | some first =>
        if (kernel.proctab first).pid = (kernel.proctab fromPcb).pid then
          some (minLen, kernel.modify srcPcb fun pcb =>
            { pcb with senderQueue := (kernel.proctab fromPcb).senderNext })
        else
          match senderBefore kernel (kernel.proctab fromPcb).pid loopFuel first with
          | none => none
          | some temp =>
              some (minLen, kernel.modify temp fun pcb =>
                { pcb with senderNext := (kernel.proctab fromPcb).senderNext })
  else
    some (0, kernel.modify srcPcb fun pcb =>
      { pcb with
        state := .blockedRecv, waitingPid := sender.pid, buffer_len := buffer_len,
        buffer := buffer })

/-- The assignment to `from_pid` changes the parameter itself and no memory. -/
def recvAny (kernel : Kernel) (srcPcb : Slot) (_from_pid buffer buffer_len : Word) :
    Option (Word × Kernel) :=
  match (kernel.proctab srcPcb).senderQueue with
  | some temp =>
      let minLen := minLen buffer_len (kernel.proctab temp).buffer_len
      let kernel := { kernel with
        mem := memCpy kernel.mem buffer (kernel.proctab temp).buffer minLen }
      let kernel := kernel.modify temp fun pcb => { pcb with ret := minLen }
      let kernel := ready (ready kernel temp) srcPcb
      some (minLen, kernel.modify srcPcb fun pcb =>
        { pcb with senderQueue := (kernel.proctab temp).senderNext })
  | none =>
      some (0, kernel.modify srcPcb fun pcb =>
        { pcb with
          state := .blockedRecv, buffer_len := buffer_len, buffer := buffer, waitingPid := -1 })

inductive MsgCall
  | send (dstPcb : Slot) (buffer buffer_len : Word)
  | recv (fromPcb : Slot) (buffer buffer_len : Word)
  | recvAny (from_pid buffer buffer_len : Word)
  deriving DecidableEq, Repr

namespace MsgCall

def serve (kernel : Kernel) (srcPcb : Slot) : MsgCall → Option (Word × Kernel)
  | send dstPcb buffer buffer_len => XerosKernel.send kernel srcPcb dstPcb buffer buffer_len
  | recv fromPcb buffer buffer_len => XerosKernel.recv kernel srcPcb fromPcb buffer buffer_len
  | recvAny from_pid buffer buffer_len =>
      XerosKernel.recvAny kernel srcPcb from_pid buffer buffer_len

end MsgCall

def dispatchMsg (dispatcher : Dispatcher) (call : MsgCall) : Option Dispatcher :=
  let p := dispatcher.current
  (call.serve dispatcher.kernel p).bind fun (value, kernel) =>
    reschedule (kernel.modify p fun pcb => { pcb with ret := value })

end XerosKernel
