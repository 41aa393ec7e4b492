import XerosKernel.SignalFrames

/-!
The signal frames of one process. The handlers in progress are kept beside the run as what
each of them interrupted: the newest one runs, and behind it is the context to which its
`SYS_SIGRETURN` goes back.
-/

namespace XerosKernel

open Execution

/-- The kernel on which a request calls `signal`, and the arguments of the call. -/
def signalCalled (kernel : Kernel) : Request → Option (Kernel × Slot × Fin MAX_SIG)
  | .kill pid signum => (killTarget kernel pid signum).bind fun target =>
      (killWake kernel target).bind fun woken =>
        if signum = 31 then (killUnlink woken target).map fun unlinked =>
          (wakeWaiters unlinked target, target, 31)
        else some (woken, target, Fin.ofNat MAX_SIG signum.toNat)
  | .create _ _ | .yield | .stop | .cputimes _ | .puts _ | .getpid | .sleep _ | .timer
  | .sighandler _ _ | .sigreturn _ _ _ | .wait _ | .openDevice _ | .close _ | .read _ _ _
  | .write _ _ _ | .ioctl _ _ _ | .keyboard | .bad _ => none

/-- A run of the dispatcher with the frames of the handlers of `p` in progress, the newest one
first. -/
structure Handling where
  d : Dispatcher
  frames : List SavedFrame

namespace Handling

/-- A delivery adds a frame, a return takes the newest one, and a new process has none. -/
def framesAfter (p : Slot) (h : Handling) (trap : Trap) (d' : Dispatcher) : List SavedFrame :=
  match signalCalled (h.d.entered trap) (h.d.request trap), h.d.request trap with
  | some (kernel, target, signum), _ =>
      if target = p ∧ Interrupts kernel p signum then interrupted kernel p :: h.frames else h.frames
  | none, .sigreturn _ _ _ => if h.d.current = p then h.frames.tail else h.frames
  | none, .create _ _ =>
      if (h.d.kernel.proctab p).state = .stopped ∧ (d'.kernel.proctab p).state ≠ .stopped then []
      else h.frames
  | none, _ => h.frames

def step (env : Env) (p : Slot) (h : Handling) (trap : Trap) : Option Handling :=
  (dispatch env h.d trap).map fun d' => { d := d', frames := h.framesAfter p trap d' }

end Handling

/-- Only the handler that runs returns, with the arguments pushed for it. -/
def ReturnsNewest (frames : List SavedFrame) : Request → Prop
  | .sigreturn old_sp old_ret sigLvl => frames.head? = some ⟨old_sp, old_ret, sigLvl⟩
  | _ => True

instance (frames : List SavedFrame) : (request : Request) → Decidable (ReturnsNewest frames request)
  | .sigreturn _ _ _ => inferInstanceAs (Decidable (_ = _))
  | .create _ _ | .yield | .stop | .kill _ _ | .cputimes _ | .puts _ | .getpid | .sleep _
  | .timer | .sighandler _ _ | .wait _ | .openDevice _ | .close _ | .read _ _ _
  | .write _ _ _ | .ioctl _ _ _ | .keyboard | .bad _ => isTrue trivial

def HasRoom (p : Slot) (called : Option (Kernel × Slot × Fin MAX_SIG)) : Prop :=
  ∀ call ∈ called, call.2.1 = p → Interrupts call.1 p call.2.2 →
    68 < (call.1.proctab p).esp.toNat

instance (p : Slot) (called : Option (Kernel × Slot × Fin MAX_SIG)) :
    Decidable (HasRoom p called) := inferInstanceAs (Decidable (∀ _ ∈ _, _))

/-- `p` keeps its stack pointer at or below the frame of the handler that runs, returns only
from that handler, and has room for the frames of new ones. -/
def Disciplined (p : Slot) (h : Handling) (trap : Trap) : Prop :=
  (h.d.current = p → (∀ frame ∈ h.frames.head?,
    trap.esp.toNat ≤ (frame.old_sp - sizeofSignalFrame).toNat) ∧
    ReturnsNewest h.frames (h.d.request trap)) ∧
  HasRoom p (signalCalled (h.d.entered trap) (h.d.request trap))

instance (p : Slot) (h : Handling) (trap : Trap) : Decidable (Disciplined p h trap) :=
  inferInstanceAs (Decidable (_ ∧ _))

/-! The frames as a stack. -/

/-- Each frame lies above the stack pointer that was in use when the next one was pushed, and
saves a lower level; with no handler in progress the level is a signal number. -/
def Nested : List SavedFrame → Word × Word → Prop
  | [], context => 0 ≤ context.2.toInt ∧ context.2.toInt ≤ 31
  | frame :: older, context =>
      (68 < frame.old_sp.toNat ∧ context.1.toNat + 24 ≤ frame.old_sp.toNat) ∧
      (frame.sigLvl.toInt < context.2.toInt ∧ context.2.toInt ≤ 31) ∧
      Nested older (frame.old_sp, frame.sigLvl)

namespace Nested

variable {frames : List SavedFrame} {context : Word × Word}

theorem level (nested : Nested frames context) :
    (frames.length : Int) ≤ context.2.toInt ∧ context.2.toInt ≤ 31 := by
  induction frames generalizing context with
  | nil => exact nested
  | cons frame older ih =>
      obtain ⟨_, ⟨lower, bound⟩, rest⟩ := nested
      have shorter := (ih rest).1
      have longer : ((frame :: older).length : Int) = older.length + 1 := by simp
      dsimp only at shorter
      exact ⟨by omega, bound⟩

theorem levels (nested : Nested frames context) :
    (context.2 :: frames.map (·.sigLvl)).Pairwise (fun newer older => older.toInt < newer.toInt) ∧
    ∀ level ∈ context.2 :: frames.map (·.sigLvl), 0 ≤ level.toInt ∧ level.toInt ≤ 31 := by
  induction frames generalizing context with
  | nil =>
      have range : 0 ≤ context.2.toInt ∧ context.2.toInt ≤ 31 := nested
      simpa using range
  | cons frame older ih =>
      obtain ⟨_, ⟨lower, bound⟩, rest⟩ := nested
      obtain ⟨sorted, range⟩ := ih rest
      simp only [List.map_cons]
      refine ⟨List.pairwise_cons.mpr ⟨fun level isOlder => ?_, sorted⟩, fun level isLevel => ?_⟩
      · rcases List.mem_cons.mp isOlder with rfl | isOlder
        · exact lower
        · have below := (List.pairwise_cons.mp sorted).1 level isOlder
          exact Int.lt_trans below lower
      · rcases List.mem_cons.mp isLevel with rfl | isOlder
        · have low := (range frame.sigLvl (List.mem_cons_self)).1
          exact ⟨by omega, bound⟩
        · exact range level isOlder

theorem above (nested : Nested frames context) {frame : SavedFrame} (inProgress : frame ∈ frames) :
    68 < frame.old_sp.toNat ∧ context.1.toNat + 24 ≤ frame.old_sp.toNat := by
  induction frames generalizing context with
  | nil => cases inProgress
  | cons newest older ih =>
      obtain ⟨place, _, rest⟩ := nested
      rcases List.mem_cons.mp inProgress with rfl | isOlder
      · exact place
      · have higher := ih rest isOlder
        simp only at higher
        exact ⟨higher.1, by omega⟩

theorem move (nested : Nested frames context) {esp : Word}
    (below : ∀ frame ∈ frames.head?, esp.toNat ≤ (frame.old_sp - sizeofSignalFrame).toNat) :
    Nested frames (esp, context.2) := by
  cases frames with
  | nil => exact nested
  | cons frame older =>
      obtain ⟨⟨room, _⟩, rest⟩ := nested
      have place := below frame rfl
      have size : sizeofSignalFrame = 24 := rfl
      rw [size] at place
      exact ⟨⟨room, by bv_omega⟩, rest⟩

theorem signum_toInt : ∀ signum : Fin MAX_SIG, (BitVec.ofNat 32 signum.val).toInt = signum.val := by
  decide

theorem push (nested : Nested frames context) (room : 68 < context.1.toNat)
    {signum : Fin MAX_SIG} (higher : context.2.toInt < (signum.val : Int)) (old_ret : Word) :
    Nested (⟨context.1, old_ret, context.2⟩ :: frames)
      (context.1 - sizeofSignalFrame - sizeofContextFrame, BitVec.ofNat 32 signum) := by
  have bound : signum.val < 32 := signum.isLt
  have number := signum_toInt signum
  refine ⟨⟨room, ?_⟩, ⟨?_, ?_⟩, nested⟩
  · have size : sizeofSignalFrame = 24 := rfl
    have size' : sizeofContextFrame = 44 := rfl
    simp only [size, size']
    bv_omega
  · simpa only [number] using higher
  · simp only [number]
    omega

end Nested

/-! One round. -/

variable {env : Env} {kernel kernel' : Kernel} {current p target : Slot} {ports : Ports}
  {request : Request} {signum : Fin MAX_SIG} {d d' : Dispatcher} {h h' : Handling} {trap : Trap}

theorem entered_context (d : Dispatcher) (trap : Trap) (p : Slot) :
    ((d.entered trap).proctab p).context =
      (if p = d.current then trap.esp else (d.kernel.proctab p).esp,
        (d.kernel.proctab p).currSigLvl) := by
  simp only [Dispatcher.entered, contextswitch]
  by_cases isCurrent : p = d.current
  · cases trap.trapNo <;> simp [Pcb.context, isCurrent]
  · cases trap.trapNo <;> simp [Pcb.context, isCurrent]

theorem Waking.signalCalled {related : Kernel → Kernel → Prop} (waking : Waking related)
    (called : signalCalled kernel request = some (kernel', target, signum)) :
    related kernel kernel' := by
  cases request with
  | kill pid number =>
      obtain ⟨found, _, rest⟩ := Option.bind_eq_some_iff.mp called
      obtain ⟨woken, wakes, rest⟩ := Option.bind_eq_some_iff.mp rest
      have first := waking.killWake wakes
      split at rest
      · obtain ⟨unlinked, unlinks, result⟩ := Option.map_eq_some_iff.mp rest
        simp only [Prod.mk.injEq] at result
        obtain ⟨rfl, rfl, _⟩ := result
        exact waking.trans (waking.trans first (waking.killUnlink unlinks))
          (waking.wakeWaiters unlinked found)
      · simp only [Option.some.injEq, Prod.mk.injEq] at rest
        obtain ⟨rfl, rfl, _⟩ := rest
        exact first
  | _ => cases called

theorem signalCalled_moves (called : signalCalled kernel request = some (kernel', target, signum)) :
    Moves kernel kernel' := moves_waking.signalCalled called

theorem serve_called (called : signalCalled kernel request = some (kernel', target, signum))
    (served : serve env kernel current ports request = some d) :
    d = resume current (signal env kernel' target signum) := by
  cases request with
  | kill pid number =>
      obtain ⟨found, reached, rest⟩ := Option.bind_eq_some_iff.mp called
      obtain ⟨woken, wakes, rest⟩ := Option.bind_eq_some_iff.mp rest
      obtain ⟨result, killed, rfl⟩ := Option.map_eq_some_iff.mp served
      rw [kill_reached env reached, wakes, Option.bind_some] at killed
      split at rest
      · rename_i fatal
        obtain ⟨unlinked, unlinks, equal⟩ := Option.map_eq_some_iff.mp rest
        rw [if_pos fatal, unlinks, Option.map_some, Option.some.injEq] at killed
        simp only [Prod.mk.injEq] at equal
        obtain ⟨rfl, rfl, rfl⟩ := equal
        rw [killed]
      · rename_i mild
        rw [if_neg mild, Option.some.injEq] at killed
        simp only [Option.some.injEq, Prod.mk.injEq] at rest
        obtain ⟨rfl, rfl, rfl⟩ := rest
        rw [killed]
  | _ => cases called

theorem uncalled_dropped {pid number value : Word}
    (quiet : signalCalled kernel (.kill pid number) = none)
    (killed : kill env kernel pid number = some (value, kernel')) :
    killTarget kernel pid number = none ∧ kernel' = kernel := by
  cases reached : killTarget kernel pid number with
  | none =>
      obtain ⟨value', dropped⟩ := kill_dropped env reached
      rw [dropped] at killed
      cases killed
      exact ⟨rfl, rfl⟩
  | some found =>
      rw [kill_reached env reached] at killed
      obtain ⟨woken, wakes, rest⟩ := Option.bind_eq_some_iff.mp killed
      rw [signalCalled, reached, Option.bind_some, wakes, Option.bind_some] at quiet
      split at quiet
      · rename_i fatal
        rw [if_pos fatal] at rest
        obtain ⟨unlinked, unlinks, _⟩ := Option.map_eq_some_iff.mp rest
        rw [unlinks] at quiet
        cases quiet
      · cases quiet

theorem kill_uncalled {pid number : Word} (quiet : signalCalled kernel (.kill pid number) = none)
    (served : serve env kernel current ports (.kill pid number) = some d) :
    SameContexts kernel d.kernel := by
  obtain ⟨⟨value, kernel'⟩, killed, rfl⟩ := Option.map_eq_some_iff.mp served
  obtain ⟨_, rfl⟩ := uncalled_dropped quiet killed
  exact SameContexts.resume kernel' current value

theorem create_nested {frames : List SavedFrame} {fp stack value : Word}
    (nested : Nested frames (kernel.proctab p).context)
    (created : create env kernel fp stack = some (value, kernel')) :
    Nested (if (kernel.proctab p).state = .stopped ∧ (kernel'.proctab p).state ≠ .stopped then []
      else frames) (kernel'.proctab p).context := by
  rcases create_cases created with outside | ⟨i, base, esp, pid, free, _, outside, rfl⟩
  · rw [outside.table, if_neg fun both => both.2 both.1]
    exact nested
  · generalize filled : base.modify i (fun pcb =>
      { pcb with esp := esp, state := .ready, pid := pid }) = middle
    rw [SameContexts.moves (ready_moves middle i) p]
    by_cases isNew : p = i
    · have level : (middle.proctab p).currSigLvl = (kernel.proctab p).currSigLvl := by
        rw [← filled, Kernel.modify_proctab, outside.table]
        split <;> rfl
      have readied : ((ready middle i).proctab p).state ≠ .stopped := by simp [isNew]
      rw [if_pos ⟨isNew ▸ free, readied⟩, Pcb.context, level]
      have range := nested.level
      exact ⟨le_trans (Int.natCast_nonneg _) range.1, range.2⟩
    · have same : middle.proctab p = kernel.proctab p := by
        rw [← filled, Kernel.modify_proctab, if_neg isNew, outside.table]
      have state : ((ready middle i).proctab p).state = (kernel.proctab p).state := by
        simp [isNew, same]
      rw [state, same, if_neg fun both => both.2 both.1]
      exact nested

theorem signal_nested {frames : List SavedFrame}
    (nested : Nested frames (kernel.proctab p).context)
    (room : target = p → Interrupts kernel p signum → 68 < (kernel.proctab p).esp.toNat) :
    Nested (if target = p ∧ Interrupts kernel p signum then interrupted kernel p :: frames
      else frames) ((signal env kernel target signum).2.proctab p).context := by
  split
  · rename_i delivered
    obtain ⟨rfl, delivers⟩ := delivered
    have space := room rfl delivers
    rw [(signal_pushed env delivers space).context]
    exact nested.push space delivers.2 _
  · rename_i other
    by_cases isTarget : target = p
    · subst isTarget
      rw [signal_contexts env (fun delivers => other ⟨rfl, delivers⟩) target]
      exact nested
    · rw [(signal_touches env kernel target signum).others p (Ne.symm isTarget)]
      exact nested

structure Restores (kernel kernel' : Kernel) (current : Slot) (saved : SavedFrame) : Prop where
  esp : (kernel'.proctab current).esp = saved.old_sp
  ret : (kernel'.proctab current).ret = saved.old_ret
  currSigLvl : (kernel'.proctab current).currSigLvl = saved.sigLvl
  others : ∀ i ≠ current, kernel'.proctab i = kernel.proctab i

theorem sigreturn_restores {old_sp old_ret sigLvl : Word}
    (served : serve env kernel current ports (.sigreturn old_sp old_ret sigLvl) = some d) :
    Restores kernel d.kernel current ⟨old_sp, old_ret, sigLvl⟩ := by
  cases served
  exact ⟨by simp [resume], by simp [resume], by simp [resume],
    fun i other => by simp [resume, other]⟩

theorem framesAfter_called {call : Kernel × Slot × Fin MAX_SIG}
    (called : signalCalled (h.d.entered trap) (h.d.request trap) = some call) :
    h.framesAfter p trap d' = if call.2.1 = p ∧ Interrupts call.1 p call.2.2 then
      interrupted call.1 p :: h.frames else h.frames := by
  simp only [Handling.framesAfter, called]

theorem Nested.step (nested : Nested h.frames (h.d.kernel.proctab p).context)
    (disciplined : Disciplined p h trap) (stepped : h.step env p trap = some h') :
    Nested h'.frames (h'.d.kernel.proctab p).context := by
  obtain ⟨d', dispatched, rfl⟩ := Option.map_eq_some_iff.mp stepped
  obtain ⟨below, room⟩ := disciplined
  have entered : Nested h.frames ((h.d.entered trap).proctab p).context := by
    rw [entered_context]
    split
    · rename_i isCurrent
      exact nested.move (below isCurrent.symm).1
    · exact nested
  have served : serve env (h.d.entered trap) h.d.current trap.ports (h.d.request trap) = some d' :=
    dispatched
  cases called : signalCalled (h.d.entered trap) (h.d.request trap) with
  | some call =>
      obtain ⟨kernel, target, signum⟩ := call
      have same := SameContexts.moves (signalCalled_moves called) p
      rw [← same] at entered
      have place : target = p → Interrupts kernel p signum → 68 < (kernel.proctab p).esp.toNat :=
        fun isTarget delivers => room _ called isTarget (isTarget ▸ delivers)
      have resumed := SameContexts.resume (signal env kernel target signum).2 h.d.current
        (signal env kernel target signum).1 p
      rw [serve_called called served, framesAfter_called called]
      change Nested _ ((resume h.d.current (signal env kernel target signum)).kernel.proctab p).context
      rw [resumed]
      exact signal_nested entered place
  | none =>
      have returns := fun isCurrent => (below isCurrent).2
      simp only [Handling.framesAfter, called]
      generalize h.d.request trap = request at called served returns
      cases request with
      | kill pid number =>
          rw [kill_uncalled called served p]
          exact entered
      | create fp stack =>
          obtain ⟨⟨value, kernel'⟩, created, rfl⟩ := Option.map_eq_some_iff.mp served
          have resumed := SameContexts.resume kernel' h.d.current value p
          have nested' := create_nested entered created
          have before : ((h.d.entered trap).proctab p).state = (h.d.kernel.proctab p).state :=
            (contextswitch_private h.d.kernel h.d.current trap).toTouches.same (·.state)
              (fun _ => rfl) p
          have after : ((resume h.d.current (value, kernel')).kernel.proctab p).state =
              (kernel'.proctab p).state :=
            (resume_private kernel' h.d.current value).toTouches.same (·.state) (fun _ => rfl) p
          rw [before, ← after, ← resumed] at nested'
          exact nested'
      | sigreturn old_sp old_ret sigLvl =>
          have restores := sigreturn_restores served
          by_cases isCurrent : h.d.current = p
          · have newest : h.frames.head? = some ⟨old_sp, old_ret, sigLvl⟩ := returns isCurrent
            obtain ⟨older, isNewest⟩ := List.head?_eq_some_iff.mp newest
            rw [isNewest] at entered
            simp only [if_pos isCurrent, isNewest, List.tail_cons, Pcb.context]
            rw [← isCurrent, restores.esp, restores.currSigLvl]
            exact entered.2.2
          · simp only [if_neg isCurrent]
            rw [restores.others p (Ne.symm isCurrent)]
            exact entered
      | _ =>
          have same := serve_contexts (by trivial) served p
          rw [← same] at entered
          exact entered

/-! Runs. -/

theorem boot_nested (booted : boot env = some d) (p : Slot) :
    Nested [] (d.kernel.proctab p).context := by
  simp only [boot, Option.bind_eq_bind, Option.bind_eq_some_iff, Prod.exists] at booted
  obtain ⟨heap, _, _, idle, created, _, kernel, created', popped⟩ := booted
  have blank : Nested [] ((dispatchinit env heap).proctab p).context := by
    change 0 ≤ (0 : Word).toInt ∧ (0 : Word).toInt ≤ 31
    decide
  have first := create_nested blank created
  rw [ite_self] at first
  have second := create_nested first created'
  rw [ite_self] at second
  rw [SameContexts.moves (reschedule_moves popped) p]
  exact second

theorem step_delivers (nested : Nested h.frames (h.d.kernel.proctab p).context)
    (disciplined : Disciplined p h trap) (stepped : h.step env p trap = some h')
    (called : signalCalled (h.d.entered trap) (h.d.request trap) = some (kernel, p, signum))
    (delivers : Interrupts kernel p signum) :
    h'.frames = interrupted kernel p :: h.frames ∧
      Pushed (interrupted kernel p) kernel h'.d.kernel p signum ∧
      ∀ frame ∈ h.frames, (kernel.proctab p).esp.toNat + 24 ≤ frame.old_sp.toNat := by
  obtain ⟨d', dispatched, rfl⟩ := Option.map_eq_some_iff.mp stepped
  obtain ⟨below, room⟩ := disciplined
  have space := room _ called rfl delivers
  have pushed := signal_pushed env delivers space
  have served : d' = resume h.d.current (signal env kernel p signum) :=
    serve_called called dispatched
  have resumed := SameContexts.resume (signal env kernel p signum).2 h.d.current
    (signal env kernel p signum).1 p
  have entered : Nested h.frames (kernel.proctab p).context := by
    rw [SameContexts.moves (signalCalled_moves called) p, entered_context]
    split
    · rename_i isCurrent
      exact nested.move (below isCurrent.symm).1
    · exact nested
  refine ⟨?_, ?_, fun frame inProgress => (entered.above inProgress).2⟩
  · rw [framesAfter_called called, if_pos ⟨rfl, delivers⟩]
  · rw [served]
    exact ⟨pushed.room, resumed.trans pushed.context, pushed.old_sp, pushed.old_ret,
      pushed.sigLvl, pushed.outside⟩

theorem step_returns (disciplined : Disciplined p h trap) (stepped : h.step env p trap = some h')
    (isCurrent : h.d.current = p) {old_sp old_ret sigLvl : Word}
    (returns : h.d.request trap = .sigreturn old_sp old_ret sigLvl) :
    ∃ frame, h.frames = frame :: h'.frames ∧
      Restores (h.d.entered trap) h'.d.kernel p frame := by
  obtain ⟨d', dispatched, rfl⟩ := Option.map_eq_some_iff.mp stepped
  have newest := (disciplined.1 isCurrent).2
  rw [returns] at newest
  obtain ⟨older, isNewest⟩ := List.head?_eq_some_iff.mp newest
  refine ⟨⟨old_sp, old_ret, sigLvl⟩, ?_, ?_⟩
  · simp [Handling.framesAfter, returns, signalCalled, isCurrent, isNewest]
  · have served : serve env (h.d.entered trap) h.d.current trap.ports (h.d.request trap) =
      some d' := dispatched
    rw [returns, isCurrent] at served
    exact sigreturn_restores served

/-- The frames of the handlers in progress are a stack: in every run in which `p` returns only
from the handler that runs and keeps its stack pointer below that handler's frame, the saved
levels increase up to the current one, a delivery pushes below all frames in use, and a return
brings back what the delivery interrupted. -/
theorem signal_nesting {env : Env} {p : Slot} {traps : List Trap} {start : Dispatcher}
    {h : Handling} (booted : boot env = some start)
    (disciplined : Along (Handling.step env p) (Disciplined p) ⟨start, []⟩ traps)
    (reached : run (Handling.step env p) ⟨start, []⟩ traps = some h) :
    (((h.d.kernel.proctab p).currSigLvl :: h.frames.map (·.sigLvl)).Pairwise
        (fun newer older => older.toInt < newer.toInt) ∧
      (∀ level ∈ (h.d.kernel.proctab p).currSigLvl :: h.frames.map (·.sigLvl),
        0 ≤ level.toInt ∧ level.toInt ≤ 31) ∧ h.frames.length ≤ 32) ∧
    ∀ trap h', Disciplined p h trap → h.step env p trap = some h' →
      (∀ kernel signum,
        signalCalled (h.d.entered trap) (h.d.request trap) = some (kernel, p, signum) →
        Interrupts kernel p signum →
        h'.frames = interrupted kernel p :: h.frames ∧
        Pushed (interrupted kernel p) kernel h'.d.kernel p signum ∧
        ∀ frame ∈ h.frames, (kernel.proctab p).esp.toNat + 24 ≤ frame.old_sp.toNat) ∧
      (h.d.current = p → ∀ old_sp old_ret sigLvl,
        h.d.request trap = .sigreturn old_sp old_ret sigLvl →
        ∃ frame, h.frames = frame :: h'.frames ∧
          Restores (h.d.entered trap) h'.d.kernel p frame) := by
  have nested : Nested h.frames (h.d.kernel.proctab p).context := by
    have kept : ∀ (h : Handling) trap (h' : Handling),
        Nested h.frames (h.d.kernel.proctab p).context → Disciplined p h trap →
        h.step env p trap = some h' → Nested h'.frames (h'.d.kernel.proctab p).context :=
      fun h trap h' nested disciplined stepped => nested.step disciplined stepped
    exact run_invariant kept (boot_nested booted p) disciplined reached
  obtain ⟨sorted, range⟩ := nested.levels
  have bound := nested.level
  refine ⟨⟨sorted, range, by omega⟩, fun trap h' disciplined stepped => ⟨?_, ?_⟩⟩
  · intro kernel signum called delivers
    exact step_delivers nested disciplined stepped called delivers
  · intro isCurrent old_sp old_ret sigLvl returns
    exact step_returns disciplined stepped isCurrent returns

def nestedRun : List Trap :=
  creatorRun ++ ((syssignal sampleFrame 5 0x5100).toList ++
    ((syssignal sampleFrame 10 0x5200).toList ++
      [syskill sampleFrame 3 5, syskill { sampleFrame with esp := 0x70000 } 3 10]))

theorem signal_nesting_two : ∃ (start : Dispatcher) (h h' : Handling), boot sampleEnv = some start ∧
    run (Handling.step sampleEnv 3) ⟨start, []⟩ nestedRun = some h ∧ h.frames.length = 2 ∧
    h.step sampleEnv 3 (syssigreturn { sampleFrame with esp := 0x60000 } 0x70000 0 5) = some h' ∧
    ∃ frame, h.frames = frame :: h'.frames ∧
      Restores (h.d.entered (syssigreturn { sampleFrame with esp := 0x60000 } 0x70000 0 5))
        h'.d.kernel 3 frame := by
  have check : ∃ start ∈ boot sampleEnv,
      Along (Handling.step sampleEnv 3) (Disciplined 3) ⟨start, []⟩ nestedRun ∧
      ∃ h ∈ run (Handling.step sampleEnv 3) ⟨start, []⟩ nestedRun,
        h.frames.length = 2 ∧ h.d.current = 3 ∧
        Disciplined 3 h (syssigreturn { sampleFrame with esp := 0x60000 } 0x70000 0 5) ∧
        h.d.request (syssigreturn { sampleFrame with esp := 0x60000 } 0x70000 0 5) =
          .sigreturn 0x70000 0 5 ∧
        ∃ h' ∈ h.step sampleEnv 3
          (syssigreturn { sampleFrame with esp := 0x60000 } 0x70000 0 5), True := by
    decide +kernel
  obtain ⟨start, booted, along, h, reached, two, isCurrent, disciplined, returns, rest⟩ := check
  obtain ⟨h', stepped, _⟩ := rest
  have steps := (signal_nesting booted along reached).2 _ h' disciplined stepped
  exact ⟨start, h, h', booted, reached, two, stepped, steps.2 isCurrent _ _ _ returns⟩

end XerosKernel
