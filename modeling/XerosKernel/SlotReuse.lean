import XerosKernel.QueueFrame
import XerosKernel.Runs

/-!
What a process inherits from the earlier ones of its slot. Neither `create` nor `SYS_STOP`
resets an entry of the table, so a new process starts with exactly what the last process of
its slot left there.
-/

namespace XerosKernel

open Execution

/-- What an entry of the table keeps from one of its processes to the next. -/
def Pcb.inherited (pcb : Pcb) : Pcb :=
  { sigtab := pcb.sigtab, sigmask := pcb.sigmask, currSigLvl := pcb.currSigLvl, fdt := pcb.fdt,
    waitpid := pcb.waitpid, cpuTime := pcb.cpuTime }

def Pcb.Fresh (pcb : Pcb) : Prop := pcb.inherited = {}

theorem Pcb.fresh_iff (pcb : Pcb) : pcb.Fresh ↔ pcb.sigtab = (fun _ => 0) ∧ pcb.sigmask = 0 ∧
    pcb.currSigLvl = 0 ∧ pcb.fdt = (fun _ => {}) ∧ pcb.waitpid = 0 ∧ pcb.cpuTime = 0 := by
  simp only [Pcb.Fresh, Pcb.inherited, Pcb.mk.injEq, true_and, and_true]
  tauto

instance (pcb : Pcb) : Decidable pcb.Fresh := decidable_of_iff _ pcb.fresh_iff.symm

def Cleared (kernel : Kernel) : Prop :=
  ∀ i, (kernel.proctab i).state = .stopped → (kernel.proctab i).Fresh

/-- The process that runs has its slot to itself, and it stops only with nothing to leave
behind. -/
def CleansUp (kernel : Kernel) (p : Slot) (request : Request) : Prop :=
  (kernel.proctab p).state ≠ .stopped ∧ (request = .stop → (kernel.proctab p).Fresh)

instance (kernel : Kernel) (p : Slot) (request : Request) :
    Decidable (CleansUp kernel p request) := inferInstanceAs (Decidable (_ ∧ _))

variable {env : Env} {kernel kernel' : Kernel} {p : Slot} {d d' : Dispatcher}

namespace Cleared

theorem modify (cleared : Cleared kernel) (change : Pcb → Pcb)
    (kept : (change (kernel.proctab p)).state = .stopped → (change (kernel.proctab p)).Fresh) :
    Cleared (kernel.modify p change) := by
  intro i
  rw [Kernel.modify_proctab]
  split
  · rename_i isP
    rw [isP]
    exact kept
  · exact cleared i

theorem requeues (cleared : Cleared kernel) (requeues : Requeues kernel kernel') :
    Cleared kernel' := by
  intro i state
  have fresh : (kernel.proctab i).inherited = {} := cleared i (requeues.stopped i state)
  have parts : ∀ pcb : Pcb, pcb.inherited =
      { pcb.personal.inherited with waitpid := pcb.waitpid } := fun _ => rfl
  rw [Pcb.Fresh, parts, requeues.personal i]
  rcases requeues.waitpid i with same | forgotten
  · rwa [same, ← parts]
  · rw [forgotten]
    exact congrArg (fun pcb : Pcb => { pcb with waitpid := 0 }) fresh

theorem touches (cleared : Cleared kernel) (touches : Touches p kernel kernel')
    (runs : (kernel.proctab p).state ≠ .stopped) : Cleared kernel' := by
  intro i state
  rw [touches.same (·.state) (fun _ => rfl)] at state
  have other : i ≠ p := by
    rintro rfl
    exact runs state
  rw [touches.others i other]
  exact cleared i state

end Cleared

theorem Touches.runs (touches : Touches p kernel kernel')
    (runs : (kernel.proctab p).state ≠ .stopped) : (kernel'.proctab p).state ≠ .stopped := by
  rwa [touches.same (·.state) fun _ => rfl]

theorem Requeues.runs (requeues : Requeues kernel kernel')
    (runs : (kernel.proctab p).state ≠ .stopped) : (kernel'.proctab p).state ≠ .stopped :=
  fun stopped => runs (requeues.stopped p stopped)

theorem signal_cleared (env : Env) (cleared : Cleared kernel) (target : Slot)
    (signum : Fin MAX_SIG) :
    Cleared (signal env kernel target signum).2 := by
  by_cases stopped : (kernel.proctab target).state = .stopped
  · obtain ⟨sigtab, _⟩ := (Pcb.fresh_iff _).mp (cleared target stopped)
    simp only [signal, sigtab, ne_eq, not_true_eq_false, if_false]
    exact cleared
  · exact cleared.touches (signal_touches env kernel target signum) stopped

theorem kill_cleared {pid signum value : Word} (cleared : Cleared kernel)
    (killed : kill env kernel pid signum = some (value, kernel')) : Cleared kernel' := by
  rcases kill_cases killed with ⟨_, rfl⟩ | ⟨target, woken, _, moves, rfl⟩
  · exact cleared
  · exact signal_cleared env (cleared.requeues moves.toRequeues) target _

theorem create_inherited {fp stackSize value : Word}
    (created : create env kernel fp stackSize = some (value, kernel')) (i : Slot) :
    (kernel'.proctab i).inherited = (kernel.proctab i).inherited := by
  rcases create_cases created with outside | ⟨slot, base, esp, pid, _, _, outside, rfl⟩
  · rw [outside.table]
  · rw [ready_proctab, ← outside.table]
    exact base.modify_same slot (fun pcb => { pcb with esp := esp, state := .ready, pid := pid })
      Pcb.inherited rfl i

theorem create_state {fp stackSize value : Word}
    (created : create env kernel fp stackSize = some (value, kernel')) (i : Slot)
    (stopped : (kernel'.proctab i).state = .stopped) : (kernel.proctab i).state = .stopped := by
  rcases create_cases created with outside | ⟨slot, base, esp, pid, _, _, outside, rfl⟩
  · rwa [outside.table] at stopped
  · have before := (ready_requeues _ slot).stopped i stopped
    rw [Kernel.modify_proctab] at before
    rw [← outside.table]
    split at before
    · cases before
    · exact before

theorem create_cleared {fp stackSize value : Word} (cleared : Cleared kernel)
    (created : create env kernel fp stackSize = some (value, kernel')) : Cleared kernel' := by
  intro i stopped
  rw [Pcb.Fresh, create_inherited created i]
  exact cleared i (create_state created i stopped)

theorem serve_cleared {ports : Ports} {request : Request} (cleared : Cleared kernel)
    (cleansUp : CleansUp kernel p request) (served : serve env kernel p ports request = some d) :
    Cleared d.kernel := by
  obtain ⟨runs, leaves⟩ := cleansUp
  cases request with
  | create fp stack =>
      obtain ⟨⟨value, kernel'⟩, created, rfl⟩ := Option.map_eq_some_iff.mp served
      have running : (kernel'.proctab p).state ≠ .stopped :=
        fun stopped => runs (create_state created p stopped)
      exact (create_cleared cleared created).touches (resume_private kernel' p value).toTouches
        running
  | yield =>
      exact cleared.requeues ((ready_requeues kernel p).trans (reschedule_requeues served))
  | stop =>
      refine Cleared.requeues ?_ (reschedule_requeues served)
      exact cleared.modify (fun pcb => { pcb with state := .stopped }) fun _ => leaves rfl
  | kill pid signum =>
      obtain ⟨⟨value, kernel'⟩, killed, rfl⟩ := Option.map_eq_some_iff.mp served
      have after := kill_cleared cleared killed
      exact after.modify (fun pcb => { pcb with ret := value }) fun stopped => after p stopped
  | sleep len =>
      obtain ⟨kernel', slept, popped⟩ := Option.bind_eq_some_iff.mp served
      exact cleared.requeues ((sleep_requeues slept).trans (reschedule_requeues popped))
  | timer =>
      obtain ⟨kernel', ticked, popped⟩ := Option.bind_eq_some_iff.mp served
      have running := (tick_requeues ticked).runs runs
      have counted := (cleared.requeues (tick_requeues ticked)).modify
        (fun pcb => { pcb with cpuTime := pcb.cpuTime + 1 })
        (fun stopped => absurd stopped running)
      exact counted.requeues ((ready_requeues _ p).trans (reschedule_requeues popped))
  | wait pid =>
      rcases serve_wait served with ⟨_, rfl⟩ | ⟨_, _, popped⟩
      · exact cleared.touches (resume_private kernel p (-1)).toTouches runs
      · refine Cleared.requeues ?_ (reschedule_requeues popped)
        exact cleared.modify (fun pcb => { pcb with state := .wait, waitpid := pid, ret := 0 })
          fun stopped => by cases stopped
  | read fd buff bufflen =>
      obtain ⟨⟨value, kernel'⟩, read, rest⟩ := Option.bind_eq_some_iff.mp served
      have answered : Cleared kernel' ∧ (kernel'.proctab p).state ≠ .stopped := by
        rcases diRead_cases read with ⟨stays, _⟩ | ⟨_, _, middle, stays, rfl⟩ |
          ⟨_, middle, stays, rfl⟩ | ⟨_, _, stays⟩
        · exact ⟨cleared.touches stays.toTouches runs, stays.runs runs⟩
        · exact ⟨(cleared.touches stays.toTouches runs).requeues (ready_requeues middle p),
            (ready_requeues middle p).runs (stays.runs runs)⟩
        · have blocked : Cleared (middle.modify p fun pcb => { pcb with state := .blocked }) :=
            (cleared.touches stays.toTouches runs).modify _ fun stopped => by
              simp at stopped
          exact ⟨blocked, by simp⟩
        · exact ⟨cleared.touches stays.toTouches runs, stays.runs runs⟩
      simp only at rest
      split at rest
      · exact answered.1.requeues (reschedule_requeues rest)
      · cases rest
        exact answered.1.touches (resume_private kernel' p value).toTouches answered.2
  | _ => exact cleared.touches (serve_local (by trivial) served).2.toTouches runs

theorem dispatch_cleared {trap : Trap} (cleared : Cleared d.kernel)
    (cleansUp : Guarded CleansUp d trap)
    (stepped : dispatch env d trap = some d') : Cleared d'.kernel := by
  have entered := (contextswitch_private d.kernel d.current trap).toTouches
  have runs : (d.kernel.proctab d.current).state ≠ .stopped := by
    have running := cleansUp.1
    rwa [Dispatcher.entered, entered.same (·.state) fun _ => rfl] at running
  exact serve_cleared (cleared.touches entered runs) cleansUp stepped

theorem boot_cleared (booted : boot env = some d) : Cleared d.kernel := by
  simp only [boot, Option.bind_eq_bind, Option.bind_eq_some_iff, Prod.exists] at booted
  obtain ⟨heap, _, _, idle, created, _, kernel, created', popped⟩ := booted
  have start : Cleared (dispatchinit env heap) := fun _ _ => rfl
  exact (create_cleared (create_cleared start created) created').requeues
    (reschedule_requeues popped)

theorem reaches_cleared {traps : List Trap} (reaches : Reaches env CleansUp traps d) :
    Cleared d.kernel := by
  obtain ⟨start, booted, along, reached⟩ := reaches
  exact run_invariant (fun _ _ _ => dispatch_cleared) (boot_cleared booted) along reached

/-- The system call `create` puts a process into the free slot `i`. -/
structure Starts (env : Env) (d : Dispatcher) (trap : Trap) (fp stack : Word) (i : Slot)
    (d' : Dispatcher) : Prop where
  request : d.request trap = .create fp stack
  served : dispatch env d trap = some d'
  free : (d.kernel.proctab i).state = .stopped
  filled : (d'.kernel.proctab i).state ≠ .stopped

theorem contextswitch_inherited (kernel : Kernel) (p i : Slot) (trap : Trap) :
    ((contextswitch kernel p trap).1.proctab i).inherited = (kernel.proctab i).inherited := by
  have switched := ({ kernel with mem := trap.mem }).modify_same p
    (fun pcb => { pcb with esp := trap.esp }) Pcb.inherited rfl i
  simp only [contextswitch]
  cases trap.trapNo with
  | timer =>
      exact (Kernel.modify_same _ p (fun pcb => { pcb with ret := trap.eax }) Pcb.inherited rfl
        i).trans switched
  | keyboard =>
      exact (Kernel.modify_same _ p (fun pcb => { pcb with ret := trap.eax }) Pcb.inherited rfl
        i).trans switched
  | kernel =>
      exact (Kernel.modify_same _ p (fun pcb => { pcb with args := trap.edx }) Pcb.inherited rfl
        i).trans switched

theorem Starts.inherited {trap : Trap} {fp stack : Word} {i : Slot}
    (starts : Starts env d trap fp stack i d') :
    (d'.kernel.proctab i).inherited = (d.kernel.proctab i).inherited := by
  have served : serve env (d.entered trap) d.current trap.ports (d.request trap) = some d' :=
    starts.served
  rw [starts.request] at served
  obtain ⟨⟨value, kernel'⟩, created, rfl⟩ := Option.map_eq_some_iff.mp served
  have resumed := kernel'.modify_same d.current (fun pcb => { pcb with ret := value })
    Pcb.inherited rfl i
  exact resumed.trans ((create_inherited created i).trans (contextswitch_inherited _ _ i trap))

/-- In runs whose processes leave nothing behind, two processes created in the same slot with
the same arguments start alike, and as in a slot that was never used. -/
theorem slot_reuse {env : Env} {traps₁ traps₂ : List Trap} {d₁ d₁' d₂ d₂' : Dispatcher}
    {trap₁ trap₂ : Trap} {fp stack : Word} {i : Slot} (reached₁ : Reaches env CleansUp traps₁ d₁)
    (reached₂ : Reaches env CleansUp traps₂ d₂) (starts₁ : Starts env d₁ trap₁ fp stack i d₁')
    (starts₂ : Starts env d₂ trap₂ fp stack i d₂') :
    (d₁'.kernel.proctab i).inherited = (d₂'.kernel.proctab i).inherited ∧
      (d₁'.kernel.proctab i).Fresh := by
  have fresh₁ : (d₁'.kernel.proctab i).Fresh :=
    starts₁.inherited.trans (reaches_cleared reached₁ i starts₁.free)
  have fresh₂ : (d₂'.kernel.proctab i).Fresh :=
    starts₂.inherited.trans (reaches_cleared reached₂ i starts₂.free)
  exact ⟨fresh₁.trans fresh₂.symm, fresh₁⟩

theorem starts_of_check (guard : Kernel → Slot → Request → Prop) (traps : List Trap)
    (test : Pcb → Prop)
    (check : ∃ start ∈ boot sampleEnv, Along (dispatch sampleEnv) (Guarded guard) start traps ∧
      ∃ d ∈ run (dispatch sampleEnv) start traps,
        d.request (syscreate sampleFrame 0x5000 0) = .create 0x5000 0 ∧
        (d.kernel.proctab 3).state = .stopped ∧
        ∃ d' ∈ dispatch sampleEnv d (syscreate sampleFrame 0x5000 0),
          (d'.kernel.proctab 3).state ≠ .stopped ∧ test (d'.kernel.proctab 3)) :
    ∃ d d', Reaches sampleEnv guard traps d ∧
      Starts sampleEnv d (syscreate sampleFrame 0x5000 0) 0x5000 0 3 d' ∧
      test (d'.kernel.proctab 3) := by
  obtain ⟨d, reached, request, free, d', served, started, passed⟩ :=
    reaches_of_check sampleEnv guard traps _ check
  exact ⟨d, d', reached, ⟨request, served, free, started⟩, passed⟩

def roundRun : List Trap :=
  [sysstop sampleFrame] ++ List.replicate 61 (syscreate sampleFrame 0x5000 0x1000000)

theorem slot_reuse_plain :
    ∃ d₁ d₁' d₂ d₂', Starts sampleEnv d₁ (syscreate sampleFrame 0x5000 0) 0x5000 0 3 d₁' ∧
      Starts sampleEnv d₂ (syscreate sampleFrame 0x5000 0) 0x5000 0 3 d₂' ∧
      (d₁'.kernel.proctab 3).inherited = (d₂'.kernel.proctab 3).inherited ∧
      (d₁'.kernel.proctab 3).Fresh := by
  obtain ⟨d₁, d₁', reached₁, starts₁, _⟩ := starts_of_check CleansUp [sysyield sampleFrame]
    (fun _ => True) (by decide +kernel)
  obtain ⟨d₂, d₂', reached₂, starts₂, _⟩ := starts_of_check CleansUp (creatorRun ++ roundRun)
    (fun _ => True) (by decide +kernel)
  exact ⟨d₁, d₁', d₂, d₂', starts₁, starts₂, slot_reuse reached₁ reached₂ starts₁ starts₂⟩

/-- The first process of slot 3 takes a handler before it stops; the second starts with it. -/
theorem slot_reuse_broken :
    ∃ d₁ d₁' d₂ d₂', Reaches sampleEnv anyRequest [sysyield sampleFrame] d₁ ∧
      Reaches sampleEnv anyRequest
        (creatorRun ++ ((syssignal sampleFrame 5 0x5100).toList ++ roundRun)) d₂ ∧
      Starts sampleEnv d₁ (syscreate sampleFrame 0x5000 0) 0x5000 0 3 d₁' ∧
      Starts sampleEnv d₂ (syscreate sampleFrame 0x5000 0) 0x5000 0 3 d₂' ∧
      (d₁'.kernel.proctab 3).sigtab 5 = 0 ∧ (d₂'.kernel.proctab 3).sigtab 5 = 0x5100 := by
  obtain ⟨d₁, d₁', reached₁, starts₁, empty⟩ := starts_of_check anyRequest
    [sysyield sampleFrame] (fun pcb => pcb.sigtab 5 = 0) (by decide +kernel)
  obtain ⟨d₂, d₂', reached₂, starts₂, handler⟩ := starts_of_check anyRequest
    (creatorRun ++ ((syssignal sampleFrame 5 0x5100).toList ++ roundRun))
    (fun pcb => pcb.sigtab 5 = 0x5100) (by decide +kernel)
  exact ⟨d₁, d₁', d₂, d₂', reached₁, reached₂, starts₁, starts₂, empty, handler⟩

end XerosKernel
