import XerosKernel.Execution
import XerosKernel.Simulation
import XerosKernel.SyscallCore

/-!
Runs of the dispatcher from start-up. A guard on the requests that are served restricts
the runs; what the actions of the schedule preserve holds in every state such runs reach.
-/

namespace XerosKernel

open Execution

def Guarded (guard : Kernel → Slot → Request → Prop) (d : Dispatcher) (trap : Trap) : Prop :=
  guard (d.entered trap) d.current (d.request trap)

instance (guard : Kernel → Slot → Request → Prop)
    [∀ kernel p request, Decidable (guard kernel p request)] (d : Dispatcher) (trap : Trap) :
    Decidable (Guarded guard d trap) := inferInstanceAs (Decidable (guard _ _ _))

/-- A run of guarded requests from start-up leads to `d`. -/
def Reaches (env : Env) (guard : Kernel → Slot → Request → Prop) (traps : List Trap)
    (d : Dispatcher) : Prop :=
  ∃ start, boot env = some start ∧ Along (dispatch env) (Guarded guard) start traps ∧
    run (dispatch env) start traps = some d

def anyRequest (_ : Kernel) (_ : Slot) (_ : Request) : Prop := True

instance (kernel : Kernel) (p : Slot) (request : Request) :
    Decidable (anyRequest kernel p request) := isTrue trivial

/-- The machine of the sample runs: 4 MB of memory with the hole of a PC, and the addresses
of a small kernel. -/
def sampleEnv : Env where
  freemem := 0x9600
  maxaddr := 0x3fffff
  HOLESTART := 0xA0000
  HOLEEND := 0x196000
  getCS := 8
  sysstop := 0x1878
  sigtramp := 0x2000
  idleproc := 0x3000
  initProgram := 0x4000
  STATE_BLOCKED_SEND := 25
  STATE_BLOCKED_RECV := 26
  rand := fun seed => (seed, seed + 1)
  srand := id
  seed := 1
  mem := fun _ => 0
  header := fun _ => ⟨0, 0, 0, 0⟩

def sampleFrame : UserFrame where
  esp := 0x80000
  ap := 0x80010
  ioctlAp := 0x80030
  mem := fun _ => 0

def timerTrap : Trap :=
  { trapNo := .timer, esp := sampleFrame.esp, eax := 0, edx := 0, mem := sampleFrame.mem,
    ports := ⟨0, 0⟩ }

def creatorRun : List Trap :=
  [sysyield sampleFrame, syscreate sampleFrame 0x5000 0, sysyield sampleFrame,
    sysyield sampleFrame]

def sleeperRun : List Trap := creatorRun ++ [syssleep sampleFrame 100]

theorem reaches_of_check (env : Env) (guard : Kernel → Slot → Request → Prop) (traps : List Trap)
    (test : Dispatcher → Prop)
    (check : ∃ start ∈ boot env, Along (dispatch env) (Guarded guard) start traps ∧
      ∃ d ∈ run (dispatch env) start traps, test d) :
    ∃ d, Reaches env guard traps d ∧ test d := by
  obtain ⟨start, booted, along, d, reached, passed⟩ := check
  exact ⟨d, ⟨start, booted, along, reached⟩, passed⟩

section Invariant

variable {env : Env} {guard : Kernel → Slot → Request → Prop}
  {invariant : Schedule → Slot → Prop}

def Holds (invariant : Schedule → Slot → Prop) (d : Dispatcher) : Prop :=
  ∃ s, Represents d.kernel s ∧ s.Live d.current ∧ invariant s d.current

theorem Represents.agrees_entered {d : Dispatcher} {s : Schedule} (rep : Represents d.kernel s)
    (trap : Trap) : Agrees (d.entered trap) s := by
  have touched := (contextswitch_private d.kernel d.current trap).toTouches
  exact ⟨fun i => (touched.same (·.state) (fun _ => rfl) i).trans (rep.state i),
    fun i => (touched.same (·.pid) (fun _ => rfl) i).trans (rep.pid i),
    fun i => (touched.same (·.waitpid) (fun _ => rfl) i).trans (rep.waitpid i)⟩

theorem guarded_round {d d' : Dispatcher} {s : Schedule} {trap : Trap}
    (rep : Represents d.kernel s) (live : s.Live d.current)
    (orderly : Orderly env (d.entered trap) d.current (d.request trap))
    (stepped : dispatch env d trap = some d') :
    ∃ action s', Performs env (d.entered trap) d.current (d.request trap) action ∧
      s.Step d.current action s' d'.current ∧ Represents d'.kernel s' ∧ s'.Live d'.current := by
  have entered := rep.touches (contextswitch_private d.kernel d.current trap).toTouches
  obtain ⟨action, s', performs, step, rep'⟩ :=
    serve_simulates entered (live.setRet _ _) orderly stepped
  have allows := performs.allows entered.agrees orderly
  refine ⟨action, s', performs, step.of_setRet, rep', ?_⟩
  exact (live.setRet _ _).step allows step

/-- Every action that the guard lets through preserves the invariant, which does not depend
on what a call returns. -/
structure Preserved (env : Env) (guard : Kernel → Slot → Request → Prop)
    (invariant : Schedule → Slot → Prop) : Prop where
  orderly : ∀ {kernel p request}, guard kernel p request → Orderly env kernel p request
  silent : ∀ {s p} i value, invariant s p → invariant (s.setRet i value) p
  after : ∀ {kernel s p request action s' p'}, Agrees kernel s → s.Live p →
    guard kernel p request → Performs env kernel p request action → invariant s p →
    s.after p action = some (s', p') → invariant s' p'

namespace Preserved

variable {d d' : Dispatcher} {trap : Trap} {traps : List Trap}

theorem dispatch (preserved : Preserved env guard invariant) (holds : Holds invariant d)
    (guarded : Guarded guard d trap) (stepped : dispatch env d trap = some d') :
    Holds invariant d' := by
  obtain ⟨s, rep, live, inv⟩ := holds
  obtain ⟨action, s', performs, step, rep', live'⟩ :=
    guarded_round rep live (preserved.orderly guarded) stepped
  obtain ⟨value, value', middle, done, rfl⟩ := step
  refine ⟨_, rep', live', preserved.silent d.current value' ?_⟩
  exact preserved.after ((rep.agrees_entered trap).setRet _ _) (live.setRet _ _) guarded
    performs (preserved.silent _ _ inv) done

theorem run (preserved : Preserved env guard invariant) (holds : Holds invariant d)
    (along : Along (XerosKernel.dispatch env) (Guarded guard) d traps)
    (reached : run (XerosKernel.dispatch env) d traps = some d') : Holds invariant d' :=
  run_invariant (fun _ _ _ holds guarded stepped => preserved.dispatch holds guarded stepped)
    holds along reached

theorem reaches (preserved : Preserved env guard invariant)
    (initial : ∀ (s s' : Schedule) p, s.Built → s.pop = some (s', p) → invariant s' p)
    (reaches : Reaches env guard traps d) : Holds invariant d := by
  obtain ⟨start, booted, along, reached⟩ := reaches
  obtain ⟨s, s', built, popped, rep⟩ := boot_built booted
  exact preserved.run ⟨s', rep, built.sound.pop popped, initial s s' _ built popped⟩ along reached

end Preserved

end Invariant

end XerosKernel
