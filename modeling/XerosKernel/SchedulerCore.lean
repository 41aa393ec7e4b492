import XerosKernel.KernelCore

/-! The ready queue of `disp.c` and the sleep queue of `sleep.c`. -/

namespace XerosKernel

def ready (kernel : Kernel) (p : Slot) : Kernel :=
  let kernel := kernel.modify p fun pcb => { pcb with next := none, state := .ready }
  let kernel := match kernel.tail with
    | some tail => kernel.modify tail fun pcb => { pcb with next := some p }
    | none => { kernel with head := some p }
  { kernel with tail := some p }

/-- `none` is the endless loop behind the message "BAD". -/
def next (kernel : Kernel) : Option (Kernel × Slot) :=
  match kernel.head with
  | none => none
  | some p =>
      let kernel := { kernel with head := (kernel.proctab p).next }
      let kernel := if kernel.head = none then { kernel with tail := none } else kernel
      some (kernel.modify p fun pcb => { pcb with next := none, prev := none }, p)

def removeFromReady (kernel : Kernel) (p : Slot) : Option Kernel :=
  match kernel.head with
  | none => some kernel
  | some head =>
      if head = p then
        let kernel := { kernel with head := (kernel.proctab p).next }
        some (if kernel.head = none then { kernel with tail := kernel.head } else kernel)
      else
        match searchFrom kernel p loopFuel head (kernel.proctab head).next with
        | none => none
        | some none => some kernel
        | some (some prev) =>
            let kernel := kernel.modify prev fun pcb =>
              { pcb with next := (kernel.proctab p).next }
            let kernel := if kernel.tail = some p then { kernel with tail := some prev }
              else kernel
            some (kernel.modify p fun pcb => { pcb with next := none })

/-- Rounds within which the loop of `sleep` ends, if it ever does: a round that comes back to a
node with the same `len` is repeated for ever. -/
def sleepFuel (len : Word) : Nat := (len.toNat + 2) * MAX_PROC + 1

/-- The loop of `sleep`: the node to insert behind and the ticks left at that point; `none`,
with `sleepFuel len` rounds, where it never ends. -/
def sleepSearch (kernel : Kernel) : Nat → Slot → Word → Option (Slot × Word)
  | 0, _, _ => none
  | fuel + 1, tmp, len =>
      match (kernel.proctab tmp).next with
      | none => some (tmp, len)
      | some behind =>
          if len < (kernel.proctab behind).sleepdiff then some (tmp, len)
          else sleepSearch kernel fuel behind (len - (kernel.proctab behind).sleepdiff)

def sleep (kernel : Kernel) (p : Slot) (len : Word) : Option Kernel :=
  if len < 1 then some (ready kernel p)
  else
    let len := len / MILLISECONDS_TICK
    let kernel := kernel.modify p fun pcb =>
      { pcb with state := .sleep, next := none, prev := none }
    match kernel.sleepQ with
    | none =>
        let kernel := { kernel with sleepQ := some p }
        some (kernel.modify p fun pcb => { pcb with sleepdiff := len })
    | some first =>
        if len < (kernel.proctab first).sleepdiff then
          let kernel := kernel.modify p fun pcb => { pcb with next := some first }
          let kernel := kernel.modify first fun pcb =>
            { pcb with sleepdiff := pcb.sleepdiff - len }
          let kernel := kernel.modify p fun pcb => { pcb with sleepdiff := len }
          some { kernel with sleepQ := some p }
        else
          let len := len - (kernel.proctab first).sleepdiff
          match sleepSearch kernel (sleepFuel len) first len with
          | none => none
          | some (tmp, len) =>
              let kernel := kernel.modify p fun pcb =>
                { pcb with next := (kernel.proctab tmp).next, prev := some tmp, sleepdiff := len }
              let kernel := kernel.modify tmp fun pcb => { pcb with next := some p }
              match (kernel.proctab p).next with
              | none => some kernel
              | some q => some (kernel.modify q fun pcb =>
                  { pcb with prev := some p, sleepdiff := pcb.sleepdiff - len })

def removeFromSleep (kernel : Kernel) (p : Slot) : Option Kernel :=
  match kernel.sleepQ with
  | none => some kernel
  | some first =>
      if first = p then
        let kernel := { kernel with sleepQ := (kernel.proctab p).next }
        match kernel.sleepQ with
        | none => some kernel
        | some q => some (kernel.modify q fun pcb =>
            { pcb with sleepdiff := pcb.sleepdiff + (kernel.proctab p).sleepdiff })
      else
        match searchFrom kernel p loopFuel first (kernel.proctab first).next with
        | none => none
        | some none => some kernel
        | some (some prev) =>
            let behind := (kernel.proctab p).next
            let kernel := kernel.modify prev fun pcb => { pcb with next := behind }
            match behind with
            | none => some kernel
            | some q =>
                let kernel := kernel.modify q fun pcb =>
                  { pcb with sleepdiff := pcb.sleepdiff + (kernel.proctab p).sleepdiff }
                some (kernel.modify p fun pcb => { pcb with next := none })

/-- `none` where `sleepQ` is read through the null pointer. -/
def killInSleep (kernel : Kernel) (p : Slot) : Option Word :=
  if kernel.sleepQ = some p then some ((kernel.proctab p).sleepdiff * MILLISECONDS_TICK)
  else
    match kernel.sleepQ with
    | none => none
    | some first =>
        some (((kernel.proctab p).sleepdiff + (kernel.proctab first).sleepdiff) *
          MILLISECONDS_TICK)

/-- The loop of `tick`. A round takes a node off the front and links it behind the last ready
process; a loop of more than `MAX_PROC + 1` rounds goes round these links and never ends. -/
def tickLoop : Nat → Kernel → Option Kernel
  | 0, _ => none
  | fuel + 1, kernel =>
      match kernel.sleepQ with
      | none => some kernel
      | some tmp =>
          if (kernel.proctab tmp).sleepdiff ≠ 0 then some kernel
          else
            let kernel := { kernel with sleepQ := (kernel.proctab tmp).next }
            let kernel := kernel.modify tmp fun pcb =>
              { pcb with state := .ready, next := none, prev := none, ret := 0 }
            tickLoop fuel (ready kernel tmp)

def tick (kernel : Kernel) : Option Kernel :=
  match kernel.sleepQ with
  | none => some kernel
  | some first =>
      tickLoop (loopFuel + 1) (kernel.modify first fun pcb =>
        { pcb with sleepdiff := pcb.sleepdiff - 1 })

end XerosKernel
