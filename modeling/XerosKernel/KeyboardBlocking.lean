import XerosKernel.DescriptorTable

/-!
Processes that block on the keyboard. Only a read blocks a process, and no interrupt ever
wakes one; so no character may be left for a blocked reader, by its own read or by a later
interrupt.
-/

namespace XerosKernel

open Execution

/-- A process is blocked only while no character waits to be read. -/
def NoLostCharacter (kernel : Kernel) : Prop :=
  ∀ i, (kernel.proctab i).state = .blocked → ∀ j, kernel.kbd.kbdbuff j = 0

def Supplies (kbd : Keyboard) (ports : Ports) : Prop :=
  Stores kbd ports ∧ kbd.eof.truncate 8 ≠ (0 : Byte)

instance (kbd : Keyboard) (ports : Ports) : Decidable (Supplies kbd ports) :=
  inferInstanceAs (Decidable (_ ∧ _))

/-- A read that blocks takes the only character, and a character arrives only while no process
is blocked. -/
def Undisturbed (env : Env) (kernel : Kernel) (p : Slot) (ports : Ports) : Request → Prop
  | .read fd buff _ => ReadsKbd env kernel p fd buff → BlocksReader kernel.kbd →
      ∀ i j, kernel.kbd.kbdbuff i ≠ 0 → kernel.kbd.kbdbuff j ≠ 0 → i = j
  | .keyboard => Supplies kernel.kbd ports → ∀ i, (kernel.proctab i).state ≠ .blocked
  | _ => True

instance (env : Env) (kernel : Kernel) (p : Slot) (ports : Ports) :
    (request : Request) → Decidable (Undisturbed env kernel p ports request)
  | .read _ _ _ => inferInstanceAs (Decidable (_ → _ → ∀ _, _))
  | .keyboard => inferInstanceAs (Decidable (_ → ∀ _, _))
  | .create _ _ | .yield | .stop | .kill _ _ | .cputimes _ | .puts _ | .getpid | .sleep _
  | .timer | .sighandler _ _ | .sigreturn _ _ _ | .wait _ | .openDevice _ | .close _
  | .write _ _ _ | .ioctl _ _ _ | .bad _ => isTrue trivial

structure Calm (kernel kernel' : Kernel) : Prop where
  blocked : ∀ i, (kernel'.proctab i).state = .blocked → (kernel.proctab i).state = .blocked
  empty : ∀ j, kernel.kbd.kbdbuff j = 0 → kernel'.kbd.kbdbuff j = 0

variable {env : Env} {kernel kernel' kernel'' : Kernel} {p : Slot} {ports : Ports}
  {request : Request} {d d' : Dispatcher} {trap : Trap}

namespace Calm

theorem refl : Calm kernel kernel := ⟨fun _ => id, fun _ => id⟩

theorem trans (first : Calm kernel kernel') (second : Calm kernel' kernel'') :
    Calm kernel kernel'' :=
  ⟨fun i blocked => first.blocked i (second.blocked i blocked),
    fun j empty => second.empty j (first.empty j empty)⟩

theorem outside (table : kernel'.proctab = kernel.proctab)
    (slots : kernel'.kbd.kbdbuff = kernel.kbd.kbdbuff) : Calm kernel kernel' :=
  ⟨fun _ => by rw [table]; exact id, fun _ => by rw [slots]; exact id⟩

theorem moves (moves : Moves kernel kernel') : Calm kernel kernel' :=
  ⟨moves.blocked, fun _ => by rw [moves.kbd]; exact id⟩

theorem touches (touched : Touches p kernel kernel')
    (same : kernel'.kbd.kbdbuff = kernel.kbd.kbdbuff) : Calm kernel kernel' where
  blocked := fun i => by rw [touched.same (·.state) fun _ => rfl]; exact id
  empty := fun j => by rw [same]; exact id

theorem modify (kernel : Kernel) (p : Slot) (change : Pcb → Pcb)
    (state : ∀ pcb, (change pcb).state = .blocked → pcb.state = .blocked) :
    Calm kernel (kernel.modify p change) where
  blocked := by
    intro i
    rw [Kernel.modify_proctab]
    split
    · exact state _
    · exact id
  empty := fun _ => id

theorem resume (kernel : Kernel) (p : Slot) (value : Word) :
    Calm kernel (resume p (value, kernel)).kernel :=
  touches (resume_private kernel p value).toTouches rfl

theorem noLost (calm : Calm kernel kernel') (noLost : NoLostCharacter kernel) :
    NoLostCharacter kernel' :=
  fun i blocked j => calm.empty j (noLost i (calm.blocked i blocked) j)

end Calm

/-! The drivers. -/

theorem dvopen_kbdbuff (kernel : Kernel) (p : Slot) (device : Device) :
    (device.dvopen kernel p).2.kbd.kbdbuff = kernel.kbd.kbdbuff := by
  have first : ∀ device, (openFirst kernel p device).2.kbd = kernel.kbd := by
    intro device
    unfold openFirst
    split <;> rfl
  cases device with
  | zero => exact congrArg Keyboard.kbdbuff (first .zero)
  | rand => exact congrArg Keyboard.kbdbuff (first .rand)
  | kbd =>
      have kept := congrArg Keyboard.kbdbuff (first .kbd)
      simp only [Device.dvopen, kbdOpen]
      split <;> exact kept

theorem dvclose_kbdbuff (kernel : Kernel) (p : Slot) (device : Device) (fd : Word) :
    (device.dvclose kernel p fd).2.kbd.kbdbuff = kernel.kbd.kbdbuff := by
  cases device <;> rfl

theorem dvwrite_kbdbuff (kernel : Kernel) (p : Slot) (device : Device) (fd buff bufflen : Word) :
    (device.dvwrite kernel p fd buff bufflen).2.kbd.kbdbuff = kernel.kbd.kbdbuff := by
  cases device <;> rfl

theorem dvioctl_kbdbuff (env : Env) (kernel : Kernel) (device : Device) (command arg3 : Word) :
    (device.dvioctl env kernel command arg3).2.kbd.kbdbuff = kernel.kbd.kbdbuff := by
  obtain ⟨eof, echo, seed, same⟩ := dvioctl_spec env kernel device command arg3
  rw [same]

theorem serve_local_kbdbuff (isLocal : request.IsLocal) (called : request ≠ .keyboard)
    (served : serve env kernel p ports request = some d) :
    d.kernel.kbd.kbdbuff = kernel.kbd.kbdbuff := by
  cases request with
  | cputimes ps =>
      cases served
      obtain ⟨mem, same⟩ := getCPUtimes_spec env kernel p ps
      simp only [same, resume]
      rfl
  | sighandler signum handler =>
      rcases serve_sighandler served with ⟨_, rfl⟩ | ⟨_, rfl⟩
      · rfl
      · rfl
  | openDevice device_no =>
      cases served
      simp only [diOpen]
      split
      · rfl
      · exact dvopen_kbdbuff kernel p _
  | close fd =>
      obtain ⟨⟨value, kernel'⟩, closed, rfl⟩ := Option.map_eq_some_iff.mp served
      change kernel'.kbd.kbdbuff = _
      rcases diClose_calls closed with ⟨_, rfl⟩ | ⟨_, device, _, answer⟩
      · rfl
      · simpa [answer] using dvclose_kbdbuff kernel p device fd
  | write fd buff bufflen =>
      obtain ⟨⟨value, kernel'⟩, written, rfl⟩ := Option.map_eq_some_iff.mp served
      change kernel'.kbd.kbdbuff = _
      rcases diWrite_calls written with ⟨_, rfl⟩ | ⟨_, _, device, _, answer⟩
      · rfl
      · simpa [answer] using dvwrite_kbdbuff kernel p device fd buff bufflen
  | ioctl fd command arg3 =>
      obtain ⟨⟨value, kernel'⟩, controlled, rfl⟩ := Option.map_eq_some_iff.mp served
      change kernel'.kbd.kbdbuff = _
      rcases diIoctl_calls controlled with ⟨_, rfl⟩ | ⟨_, device, _, answer⟩
      · rfl
      · simpa [answer] using dvioctl_kbdbuff env kernel device command arg3
  | keyboard => exact absurd rfl called
  | puts _ | getpid | sigreturn _ _ _ | bad _ =>
      cases served
      rfl
  | _ => exact isLocal.elim

theorem kbdRead_calm (kernel : Kernel) (p : Slot) (fd buff : Word) :
    Calm kernel (kbdRead kernel p fd buff).2 ∨
      BlocksReader kernel.kbd ∧ ∃ i, firstUnread kernel.kbd = some i ∧
        (kbdRead kernel p fd buff).2.kbd.kbdbuff = (kernel.kbd.clearSlot i).kbdbuff := by
  rw [kbdRead_eq]
  cases found : firstUnread kernel.kbd with
  | none => exact Or.inl Calm.refl
  | some i =>
      have cleared : Calm kernel (takeChar kernel buff i) := by
        refine ⟨fun _ => id, fun j empty => ?_⟩
        simp only [takeChar, Keyboard.clearSlot, empty, ite_self]
      simp only
      split
      · refine Or.inl (cleared.trans (Calm.trans ?_ (Calm.moves (ready_moves _ p))))
        exact Calm.touches (kbdClose_private _ p fd).toTouches rfl
      · rename_i notEof
        split
        · exact Or.inl Calm.refl
        · rename_i notReturn
          exact Or.inr ⟨⟨i, found, notEof, notReturn⟩, i, rfl, rfl⟩

theorem dvread_calm {device : Device} {fd buff bufflen value : Word}
    (answer : device.dvread env kernel p fd buff bufflen = some (value, kernel')) :
    Calm kernel kernel' ∨ device = .kbd ∧ BlocksReader kernel.kbd ∧
      ∃ i, firstUnread kernel.kbd = some i ∧
        kernel'.kbd.kbdbuff = (kernel.kbd.clearSlot i).kbdbuff := by
  cases device with
  | zero =>
      simp only [Device.dvread, zeroRead, Option.some.injEq, Prod.mk.injEq] at answer
      obtain ⟨_, rfl⟩ := answer
      refine Or.inl (Calm.touches (p := p) (Private.trans ?_ (writeFdt_private _ p (fdIndex fd)
        fun fdStruct => { fdStruct with dataBuffer := 0 })).toTouches rfl)
      exact Private.outside ⟨rfl, rfl, rfl, rfl, rfl, rfl⟩
  | rand =>
      obtain ⟨⟨mem, seed, rfl⟩, _⟩ := randRead_spec answer
      exact Or.inl ⟨fun _ => id, fun _ => id⟩
  | kbd =>
      simp only [Device.dvread, Option.some.injEq] at answer
      have cases := kbdRead_calm kernel p fd buff
      rw [answer] at cases
      exact cases.imp id fun blocks => ⟨rfl, blocks⟩

theorem diRead_noLost {fd buff bufflen value : Word} (noLost : NoLostCharacter kernel)
    (undisturbed : Undisturbed env kernel p ports (.read fd buff bufflen))
    (answer : diRead env kernel p fd buff bufflen = some (value, kernel')) :
    NoLostCharacter kernel' := by
  rcases diRead_calls answer with ⟨_, rfl⟩ | ⟨validFd, validBuffer, device, opened, read⟩
  · exact noLost
  · rcases dvread_calm read with calm | ⟨rfl, blocks, i, first, taken⟩
    · exact calm.noLost noLost
    · have only := undisturbed ⟨validFd, validBuffer, opened⟩ blocks
      have held : kernel.kbd.kbdbuff i ≠ 0 := by simpa using List.find?_some first
      intro _ _ j
      rw [taken]
      by_cases isFirst : j = i
      · exact if_pos isFirst
      · refine (if_neg isFirst).trans (Classical.byContradiction fun other => ?_)
        exact isFirst (only j i other held)

theorem fillHole_zero (kbdbuff : Fin 4 → Byte) : fillHole kbdbuff 0 = kbdbuff := by
  unfold fillHole
  split
  · rfl
  · rename_i hole found
    have empty : kbdbuff hole = 0 := by simpa using List.find?_some found
    funext i
    split
    · rename_i isHole
      rw [isHole, empty]
    · rfl

theorem kbdHandler_noLost (noLost : NoLostCharacter kernel)
    (undisturbed : Undisturbed env kernel p ports .keyboard) :
    NoLostCharacter (kbdHandler kernel p ports) := by
  have touched := (kbdHandler_private kernel p ports).toTouches
  by_cases supplies : Supplies kernel.kbd ports
  · intro i blocked
    rw [touched.same (·.state) fun _ => rfl] at blocked
    exact absurd blocked (undisturbed supplies i)
  · refine Calm.noLost (Calm.mk (fun i => ?_) fun j empty => ?_) noLost
    · rw [touched.same (·.state) fun _ => rfl]
      exact id
    · rw [(kbdHandler_slots kernel p ports).2]
      split
      · rename_i stores
        have zero : kernel.kbd.eof.truncate 8 = (0 : Byte) := by
          by_contra other
          exact supplies ⟨stores, other⟩
        rw [zero, fillHole_zero, empty]
      · exact empty

/-! Rounds and runs. -/

theorem signal_calm (env : Env) (kernel : Kernel) (p : Slot) (signum : Fin MAX_SIG) :
    Calm kernel (signal env kernel p signum).2 := by
  refine Calm.touches (signal_touches env kernel p signum) ?_
  rcases signal_cases env kernel p signum with ⟨_, same⟩ | ⟨_, ⟨_, same⟩ | ⟨_, same⟩⟩ <;> rw [same]
  · rfl
  · rfl

theorem kill_calm {pid signum value : Word}
    (killed : kill env kernel pid signum = some (value, kernel')) : Calm kernel kernel' := by
  rcases kill_cases killed with ⟨_, rfl⟩ | ⟨target, woken, _, moves, rfl⟩
  · exact Calm.refl
  · exact (Calm.moves moves).trans (signal_calm env woken target _)

theorem create_calm {fp stackSize value : Word}
    (created : create env kernel fp stackSize = some (value, kernel')) : Calm kernel kernel' := by
  simp only [create] at created
  split at created
  · cases created
    exact Calm.outside rfl rfl
  · rename_i i found
    split at created
    · cases created
    · split at created
      · cases created
        exact Calm.outside rfl rfl
      · rename_i heap _ _
        cases created
        refine Calm.trans ?_ (Calm.moves (ready_moves _ i))
        refine Calm.trans ?_ (Calm.modify _ i _ ?_)
        · exact Calm.outside rfl rfl
        · intro pcb state
          exact absurd state (by simp)

theorem serve_noLost (noLost : NoLostCharacter kernel)
    (undisturbed : Undisturbed env kernel p ports request)
    (served : serve env kernel p ports request = some d) : NoLostCharacter d.kernel := by
  cases request with
  | create fp stack =>
      obtain ⟨⟨value, kernel'⟩, created, rfl⟩ := Option.map_eq_some_iff.mp served
      exact ((create_calm created).trans (Calm.resume kernel' p value)).noLost noLost
  | yield =>
      exact (Calm.moves ((ready_moves kernel p).trans (reschedule_moves served))).noLost noLost
  | stop =>
      have stopped := Calm.modify kernel p (fun pcb => { pcb with state := .stopped })
        fun _ state => by cases state
      exact (stopped.trans (Calm.moves (reschedule_moves served))).noLost noLost
  | kill pid signum =>
      obtain ⟨⟨value, kernel'⟩, killed, rfl⟩ := Option.map_eq_some_iff.mp served
      exact ((kill_calm killed).trans (Calm.resume kernel' p value)).noLost noLost
  | sleep len =>
      obtain ⟨kernel', slept, popped⟩ := Option.bind_eq_some_iff.mp served
      exact (Calm.moves ((sleep_moves slept).trans (reschedule_moves popped))).noLost noLost
  | timer =>
      obtain ⟨kernel', ticked, popped⟩ := Option.bind_eq_some_iff.mp served
      have counted := Calm.modify kernel' p (fun pcb => { pcb with cpuTime := pcb.cpuTime + 1 })
        fun _ => id
      have moved := (ready_moves _ p).trans (reschedule_moves popped)
      exact (((Calm.moves (tick_moves ticked)).trans counted).trans
        (Calm.moves moved)).noLost noLost
  | wait pid =>
      rcases serve_wait served with ⟨_, rfl⟩ | ⟨_, _, popped⟩
      · exact (Calm.resume kernel p (-1)).noLost noLost
      · have waits := Calm.modify kernel p (fun pcb =>
          { pcb with state := .wait, waitpid := pid, ret := 0 }) fun _ state => by cases state
        exact (waits.trans (Calm.moves (reschedule_moves popped))).noLost noLost
  | read fd buff bufflen =>
      obtain ⟨⟨value, kernel'⟩, read, rest⟩ := Option.bind_eq_some_iff.mp served
      have answered := diRead_noLost noLost undisturbed read
      simp only at rest
      split at rest
      · exact (Calm.moves (reschedule_moves rest)).noLost answered
      · cases rest
        exact (Calm.resume kernel' p value).noLost answered
  | keyboard =>
      cases served
      exact kbdHandler_noLost noLost undisturbed
  | _ =>
      obtain ⟨_, stays⟩ := serve_local (by trivial) served
      have slots := serve_local_kbdbuff (by trivial) (by simp) served
      exact (Calm.touches stays.toTouches slots).noLost noLost

def UndisturbedRound (env : Env) (d : Dispatcher) (trap : Trap) : Prop :=
  Undisturbed env (d.entered trap) d.current trap.ports (d.request trap)

instance (env : Env) (d : Dispatcher) (trap : Trap) : Decidable (UndisturbedRound env d trap) :=
  inferInstanceAs (Decidable (Undisturbed _ _ _ _ _))

theorem contextswitch_kbd (kernel : Kernel) (p : Slot) (trap : Trap) :
    (contextswitch kernel p trap).1.kbd = kernel.kbd := by
  simp only [contextswitch]
  cases trap.trapNo <;> rfl

theorem entered_calm (d : Dispatcher) (trap : Trap) : Calm d.kernel (d.entered trap) :=
  Calm.touches (contextswitch_private d.kernel d.current trap).toTouches
    (congrArg Keyboard.kbdbuff (contextswitch_kbd d.kernel d.current trap))

theorem dispatch_noLost (noLost : NoLostCharacter d.kernel)
    (undisturbed : UndisturbedRound env d trap) (stepped : dispatch env d trap = some d') :
    NoLostCharacter d'.kernel :=
  serve_noLost ((entered_calm d trap).noLost noLost) undisturbed stepped

theorem boot_noLost (booted : boot env = some d) : NoLostCharacter d.kernel := by
  simp only [boot, Option.bind_eq_bind, Option.bind_eq_some_iff, Prod.exists] at booted
  obtain ⟨heap, _, _, idle, created, _, kernel, created', popped⟩ := booted
  have start : NoLostCharacter (dispatchinit env heap) := fun _ _ _ => rfl
  exact (((create_calm created).trans (create_calm created')).trans
    (Calm.moves (reschedule_moves popped))).noLost start

/-- No process is blocked while a character waits, in the runs in which every read that blocks
takes the only character and no character arrives while a process is blocked; and a key event
of such a run leaves every blocked reader blocked, without a character for it. -/
theorem no_lost_wakeup {env : Env} {traps : List Trap} {start d : Dispatcher}
    (booted : boot env = some start)
    (along : Along (dispatch env) (UndisturbedRound env) start traps)
    (reached : run (dispatch env) start traps = some d) :
    (∀ i, (d.kernel.proctab i).state = .blocked → ∀ j, d.kernel.kbd.kbdbuff j = 0) ∧
    ∀ (trap : Trap) (d' : Dispatcher), d.request trap = .keyboard → UndisturbedRound env d trap →
      dispatch env d trap = some d' → ∀ i, (d.kernel.proctab i).state = .blocked →
        (d'.kernel.proctab i).state = .blocked ∧ ∀ j, d'.kernel.kbd.kbdbuff j = 0 := by
  have kept : ∀ (state : Dispatcher) trap (next : Dispatcher), NoLostCharacter state.kernel →
      UndisturbedRound env state trap → dispatch env state trap = some next →
      NoLostCharacter next.kernel :=
    fun _ _ _ noLost undisturbed stepped => dispatch_noLost noLost undisturbed stepped
  have noLost : NoLostCharacter d.kernel :=
    run_invariant kept (boot_noLost booted) along reached
  refine ⟨noLost, fun trap d' isKey undisturbed stepped i blocked => ?_⟩
  have served : serve env (d.entered trap) d.current trap.ports (d.request trap) = some d' :=
    stepped
  rw [isKey] at served
  obtain ⟨_, stays⟩ := serve_local (by trivial) served
  have entered := (contextswitch_private d.kernel d.current trap).toTouches
  have blocked' : (d'.kernel.proctab i).state = .blocked := by
    rw [stays.same (·.state) (fun _ => rfl), Dispatcher.entered,
      entered.same (·.state) fun _ => rfl]
    exact blocked
  exact ⟨blocked', dispatch_noLost noLost undisturbed stepped i blocked'⟩

def blockedRun : List Trap :=
  creatorRun ++ [sysopen sampleFrame 2, keyTrap 0x1e, sysioctl sampleFrame 0 53 5,
    sysread sampleFrame 0 0x80020 1]

theorem no_lost_wakeup_blocked : ∃ (start d : Dispatcher), boot sampleEnv = some start ∧
    run (dispatch sampleEnv) start blockedRun = some d ∧
    (d.kernel.proctab 3).state = .blocked ∧ ∀ j, d.kernel.kbd.kbdbuff j = 0 := by
  have check : ∃ start ∈ boot sampleEnv,
      Along (dispatch sampleEnv) (UndisturbedRound sampleEnv) start blockedRun ∧
      ∃ d ∈ run (dispatch sampleEnv) start blockedRun, (d.kernel.proctab 3).state = .blocked := by
    decide +kernel
  obtain ⟨start, booted, along, d, reached, isBlocked⟩ := check
  exact ⟨start, d, booted, reached, isBlocked,
    (no_lost_wakeup booted along reached).1 3 isBlocked⟩

/-- The next key fills a slot of the buffer, and the reader stays blocked. -/
theorem no_lost_wakeup_broken : ∃ d, Reaches sampleEnv anyRequest
      (blockedRun ++ [keyTrap 0x1e]) d ∧
    (d.kernel.proctab 3).state = .blocked ∧ d.kernel.kbd.kbdbuff 0 ≠ 0 := by
  obtain ⟨d, reaches, outcome⟩ := reaches_of_check sampleEnv anyRequest
    (blockedRun ++ [keyTrap 0x1e])
    (fun d => (d.kernel.proctab 3).state = .blocked ∧ d.kernel.kbd.kbdbuff 0 ≠ 0)
    (by decide +kernel)
  exact ⟨d, reaches, outcome⟩

end XerosKernel
