import XerosKernel.QueueFrame
import XerosKernel.Runs

/-!
Accepted and delivered signals. A handler frame is pushed in the call of `signal` that
accepts the signal or never, so no signal is lost exactly in the runs in which every
accepted signal has a higher number than the level its target runs at.
-/

namespace XerosKernel

open Execution

/-- A signal that finds a handler interrupts what its target does. -/
def Prompt (kernel : Kernel) (_ : Slot) : Request → Prop
  | .kill pid signum => ∀ target ∈ killTarget kernel pid signum,
      (kernel.proctab target).sigtab (Fin.ofNat MAX_SIG signum.toNat) ≠ 0 →
        (kernel.proctab target).currSigLvl.toInt < (Fin.ofNat MAX_SIG signum.toNat).val
  | _ => True

instance (kernel : Kernel) (p : Slot) : (request : Request) → Decidable (Prompt kernel p request)
  | .kill _ _ => inferInstanceAs (Decidable (∀ _ ∈ _, _))
  | .create _ _ | .yield | .stop | .cputimes _ | .puts _ | .getpid | .sleep _ | .timer
  | .sighandler _ _ | .sigreturn _ _ _ | .wait _ | .openDevice _ | .close _ | .read _ _ _
  | .write _ _ _ | .ioctl _ _ _ | .keyboard | .bad _ => isTrue trivial

structure SameHistory (kernel kernel' : Kernel) : Prop where
  accepted : kernel'.accepted = kernel.accepted
  pushed : kernel'.pushed = kernel.pushed

variable {env : Env} {kernel kernel' kernel'' : Kernel} {p : Slot} {d d' : Dispatcher}

namespace SameHistory

theorem trans (first : SameHistory kernel kernel') (second : SameHistory kernel' kernel'') :
    SameHistory kernel kernel'' :=
  ⟨second.accepted.trans first.accepted, second.pushed.trans first.pushed⟩

end SameHistory

theorem Requeues.history (requeues : Requeues kernel kernel') : SameHistory kernel kernel' :=
  ⟨requeues.accepted, requeues.pushed⟩

theorem Private.history (stays : Private p kernel kernel') : SameHistory kernel kernel' :=
  ⟨stays.accepted, stays.pushed⟩

theorem modify_history (kernel : Kernel) (p : Slot) (write : Pcb → Pcb) :
    SameHistory kernel (kernel.modify p write) := ⟨rfl, rfl⟩

theorem resume_history (p : Slot) (result : Word × Kernel) :
    SameHistory result.2 (resume p result).kernel := ⟨rfl, rfl⟩

theorem create_history {fp stack value : Word}
    (created : create env kernel fp stack = some (value, kernel')) :
    SameHistory kernel kernel' := by
  rcases create_cases created with outside | ⟨i, base, esp, pid, _, _, outside, rfl⟩
  · exact ⟨outside.accepted, outside.pushed⟩
  · have named : SameHistory kernel (base.modify i fun pcb =>
        { pcb with esp := esp, state := .ready, pid := pid }) :=
      ⟨outside.accepted, outside.pushed⟩
    exact named.trans (ready_requeues _ i).history

theorem serve_history {ports : Ports} {request : Request}
    (quiet : ∀ pid signum, request ≠ .kill pid signum)
    (served : serve env kernel p ports request = some d) : SameHistory kernel d.kernel := by
  cases request with
  | kill pid signum => exact absurd rfl (quiet pid signum)
  | create fp stack =>
      obtain ⟨⟨value, kernel'⟩, created, rfl⟩ := Option.map_eq_some_iff.mp served
      exact (create_history created).trans (resume_history p (value, kernel'))
  | yield => exact ((ready_requeues kernel p).trans (reschedule_requeues served)).history
  | stop => exact (modify_history kernel p _).trans (reschedule_requeues served).history
  | sleep len =>
      obtain ⟨kernel', slept, popped⟩ := Option.bind_eq_some_iff.mp served
      exact ((sleep_requeues slept).trans (reschedule_requeues popped)).history
  | timer =>
      obtain ⟨kernel', ticked, popped⟩ := Option.bind_eq_some_iff.mp served
      have counted := (tick_requeues ticked).history.trans (modify_history kernel' p fun pcb =>
        { pcb with cpuTime := pcb.cpuTime + 1 })
      exact counted.trans ((ready_requeues _ p).trans (reschedule_requeues popped)).history
  | wait pid =>
      rcases serve_wait served with ⟨_, rfl⟩ | ⟨_, _, popped⟩
      · exact resume_history p (-1, kernel)
      · exact (modify_history kernel p _).trans (reschedule_requeues popped).history
  | read fd buff bufflen =>
      obtain ⟨⟨value, kernel'⟩, read, rest⟩ := Option.bind_eq_some_iff.mp served
      have answered : SameHistory kernel kernel' := by
        rcases diRead_cases read with ⟨stays, _⟩ | ⟨_, _, middle, stays, rfl⟩ |
          ⟨_, middle, stays, rfl⟩ | ⟨_, _, stays⟩
        · exact stays.history
        · exact stays.history.trans (ready_requeues middle p).history
        · exact stays.history.trans (modify_history middle p _)
        · exact stays.history
      simp only at rest
      split at rest
      · exact answered.trans (reschedule_requeues rest).history
      · cases rest
        exact answered.trans (resume_history p (value, kernel'))
  | _ => exact (serve_local (by trivial) served).2.history

/-! What `signal` and `kill` add to the history. -/

structure Signals (kernel kernel' : Kernel) (target : Slot) (signum : Fin MAX_SIG) : Prop where
  ignored : (kernel.proctab target).sigtab signum = 0 → SameHistory kernel kernel'
  accepted : (kernel.proctab target).sigtab signum ≠ 0 →
    kernel'.accepted = kernel.accepted ++ [(target, signum)]
  delivered : (kernel.proctab target).sigtab signum ≠ 0 →
    (kernel.proctab target).currSigLvl.toInt < signum.val →
      kernel'.pushed = kernel.pushed ++ [(target, signum)]
  lost : (kernel.proctab target).sigtab signum ≠ 0 →
    ¬ (kernel.proctab target).currSigLvl.toInt < signum.val → kernel'.pushed = kernel.pushed

theorem signal_signals (env : Env) (kernel : Kernel) (target : Slot) (signum : Fin MAX_SIG) :
    Signals kernel (signal env kernel target signum).2 target signum := by
  rcases signal_cases env kernel target signum with
    ⟨ignored, same⟩ | ⟨handled, ⟨lower, same⟩ | ⟨higher, same⟩⟩ <;> rw [same]
  · exact ⟨fun _ => ⟨rfl, rfl⟩, fun handled => absurd ignored handled,
      fun handled => absurd ignored handled, fun handled => absurd ignored handled⟩
  · exact ⟨fun ignored => absurd ignored handled, fun _ => rfl, fun _ _ => rfl,
      fun _ higher => absurd lower higher⟩
  · exact ⟨fun ignored => absurd ignored handled, fun _ => rfl,
      fun _ lower => absurd lower higher, fun _ _ => rfl⟩

theorem Signals.of_requeues {target : Slot} {signum : Fin MAX_SIG}
    (requeues : Requeues kernel kernel') (signals : Signals kernel' kernel'' target signum) :
    Signals kernel kernel'' target signum := by
  have sigtab : (kernel'.proctab target).sigtab = (kernel.proctab target).sigtab := by
    have personal := congrArg Pcb.sigtab (requeues.personal target)
    exact personal
  have level : (kernel'.proctab target).currSigLvl = (kernel.proctab target).currSigLvl := by
    have personal := congrArg Pcb.currSigLvl (requeues.personal target)
    exact personal
  obtain ⟨ignored, accepted, delivered, lost⟩ := signals
  rw [sigtab] at ignored accepted delivered lost
  rw [level] at delivered lost
  rw [requeues.accepted] at accepted
  rw [requeues.pushed] at delivered lost
  exact ⟨fun none => requeues.history.trans (ignored none), accepted, delivered, lost⟩

/-! Runs. -/

def undelivered (kernel : Kernel) : Nat := kernel.accepted.length - kernel.pushed.length

def InOrder (kernel : Kernel) : Prop := kernel.pushed.Sublist kernel.accepted

theorem SameHistory.inOrder (same : SameHistory kernel kernel') (inOrder : InOrder kernel) :
    InOrder kernel' := by
  rwa [InOrder, same.accepted, same.pushed]

theorem SameHistory.undelivered (same : SameHistory kernel kernel') :
    undelivered kernel' = undelivered kernel := by
  rw [XerosKernel.undelivered, same.accepted, same.pushed]
  rfl

theorem Signals.kept {target : Slot} {signum : Fin MAX_SIG}
    (signals : Signals kernel kernel' target signum) (inOrder : InOrder kernel)
    (prompt : (kernel.proctab target).sigtab signum ≠ 0 →
      (kernel.proctab target).currSigLvl.toInt < signum.val) :
    InOrder kernel' ∧ XerosKernel.undelivered kernel' = XerosKernel.undelivered kernel := by
  by_cases handled : (kernel.proctab target).sigtab signum = 0
  · have same := signals.ignored handled
    exact ⟨same.inOrder inOrder, same.undelivered⟩
  · have accepted := signals.accepted handled
    have pushed := signals.delivered handled (prompt handled)
    constructor
    · rw [InOrder, accepted, pushed]
      exact inOrder.append_right _
    · rw [XerosKernel.undelivered, XerosKernel.undelivered, accepted, pushed]
      simp only [List.length_append, List.length_singleton]
      omega

theorem Signals.dropped {target : Slot} {signum : Fin MAX_SIG}
    (signals : Signals kernel kernel' target signum) (inOrder : InOrder kernel)
    (handled : (kernel.proctab target).sigtab signum ≠ 0)
    (higher : ¬ (kernel.proctab target).currSigLvl.toInt < signum.val) :
    InOrder kernel' ∧ XerosKernel.undelivered kernel' = XerosKernel.undelivered kernel + 1 := by
  have accepted := signals.accepted handled
  have pushed := signals.lost handled higher
  have bound := inOrder.length_le
  constructor
  · rw [InOrder, accepted, pushed]
    exact List.Sublist.trans inOrder (List.sublist_append_left _ _)
  · rw [XerosKernel.undelivered, XerosKernel.undelivered, accepted, pushed]
    simp only [List.length_append, List.length_singleton]
    omega

theorem serve_undelivered {ports : Ports} {request : Request} (inOrder : InOrder kernel)
    (served : serve env kernel p ports request = some d) :
    InOrder d.kernel ∧
      (Prompt kernel p request → undelivered d.kernel = undelivered kernel) ∧
      (¬ Prompt kernel p request → undelivered d.kernel = undelivered kernel + 1) := by
  by_cases quiet : ∀ pid signum, request ≠ .kill pid signum
  · have same := serve_history quiet served
    have prompt : Prompt kernel p request := by
      cases request with
      | kill pid signum => exact absurd rfl (quiet pid signum)
      | _ => trivial
    exact ⟨same.inOrder inOrder, fun _ => same.undelivered, fun not => absurd prompt not⟩
  · simp only [not_forall, ne_eq, not_not] at quiet
    obtain ⟨pid, signum, rfl⟩ := quiet
    obtain ⟨⟨value, kernel'⟩, killed, rfl⟩ := Option.map_eq_some_iff.mp served
    have resumed := resume_history p (value, kernel')
    rw [resumed.undelivered]
    rcases kill_cases killed with ⟨reached, rfl⟩ | ⟨target, woken, reached, moves, rfl⟩
    · have prompt : Prompt kernel' p (.kill pid signum) := by simp [Prompt, reached]
      exact ⟨resumed.inOrder inOrder, fun _ => rfl, fun not => absurd prompt not⟩
    · have signals := (signal_signals env woken target
        (Fin.ofNat MAX_SIG signum.toNat)).of_requeues moves.toRequeues
      have meaning : Prompt kernel p (.kill pid signum) ↔
          ((kernel.proctab target).sigtab (Fin.ofNat MAX_SIG signum.toNat) ≠ 0 →
            (kernel.proctab target).currSigLvl.toInt <
              (Fin.ofNat MAX_SIG signum.toNat).val) := by
        simp [Prompt, reached]
      by_cases prompt : Prompt kernel p (.kill pid signum)
      · obtain ⟨ordered, same⟩ := signals.kept inOrder (meaning.mp prompt)
        exact ⟨resumed.inOrder ordered, fun _ => same, fun not => absurd prompt not⟩
      · obtain ⟨handled, higher⟩ := Classical.not_imp.mp fun lower => prompt (meaning.mpr lower)
        obtain ⟨ordered, more⟩ := signals.dropped inOrder handled higher
        exact ⟨resumed.inOrder ordered, fun holds => absurd holds prompt, fun _ => more⟩

theorem dispatch_undelivered {trap : Trap} (inOrder : InOrder d.kernel)
    (stepped : dispatch env d trap = some d') :
    InOrder d'.kernel ∧
      (Guarded Prompt d trap → undelivered d'.kernel = undelivered d.kernel) ∧
      (¬ Guarded Prompt d trap → undelivered d'.kernel = undelivered d.kernel + 1) := by
  have entered := (contextswitch_private d.kernel d.current trap).history
  rw [← entered.undelivered]
  exact serve_undelivered (entered.inOrder inOrder) stepped

theorem boot_history (booted : boot env = some d) :
    d.kernel.accepted = [] ∧ d.kernel.pushed = [] := by
  simp only [boot, Option.bind_eq_bind, Option.bind_eq_some_iff, Prod.exists] at booted
  obtain ⟨heap, _, _, idle, created, _, kernel, created', popped⟩ := booted
  have history := ((create_history created).trans (create_history created')).trans
    (reschedule_requeues popped).history
  exact ⟨history.accepted, history.pushed⟩

/-- Every accepted signal is delivered once in the runs in which every signal that finds a
handler is above its target's level, and in no others. -/
theorem signals_delivered {env : Env} {traps : List Trap} {start d : Dispatcher}
    (booted : boot env = some start) (reached : run (dispatch env) start traps = some d) :
    (∀ event, d.kernel.pushed.count event = d.kernel.accepted.count event) ↔
      Along (dispatch env) (Guarded Prompt) start traps := by
  obtain ⟨accepted, pushed⟩ := boot_history booted
  have inOrder : InOrder start.kernel := by rw [InOrder, accepted, pushed]
  have none : undelivered start.kernel = 0 := by rw [undelivered, accepted, pushed]; rfl
  have kept : ∀ (d : Dispatcher) trap (d' : Dispatcher), InOrder d.kernel →
      dispatch env d trap = some d' → InOrder d'.kernel ∧
        (undelivered d'.kernel = 0 ↔ undelivered d.kernel = 0 ∧ Guarded Prompt d trap) := by
    intro d trap d' inOrder stepped
    obtain ⟨inOrder', delivered, lost⟩ := dispatch_undelivered inOrder stepped
    refine ⟨inOrder', ?_⟩
    by_cases prompt : Guarded Prompt d trap
    · simp [delivered prompt, prompt]
    · simp [lost prompt, prompt]
  have inOrder' : InOrder d.kernel := run_invariant (fun d trap d' inOrder _ stepped =>
    (kept d trap d' inOrder stepped).1) inOrder along_true reached
  have all : undelivered d.kernel = 0 ↔ Along (dispatch env) (Guarded Prompt) start traps := by
    rw [run_iff_along kept inOrder reached]
    exact and_iff_right none
  rw [← all]
  constructor
  · intro same
    have lengths := (List.perm_iff_count.mpr same).length_eq
    rw [undelivered]
    omega
  · intro every event
    have bound := inOrder'.length_le
    rw [undelivered] at every
    rw [inOrder'.eq_of_length (by omega)]

theorem signals_delivered_one :
    ∃ (start d : Dispatcher), boot sampleEnv = some start ∧ d.kernel.accepted = [(3, 5)] ∧
      ((∀ event, d.kernel.pushed.count event = d.kernel.accepted.count event) ↔
        Along (dispatch sampleEnv) (Guarded Prompt) start (creatorRun ++
          ((syssignal sampleFrame 5 0x5100).toList ++ [syskill sampleFrame 3 5]))) := by
  obtain ⟨d, ⟨start, booted, _, reached⟩, accepted⟩ := reaches_of_check sampleEnv anyRequest
    (creatorRun ++ ((syssignal sampleFrame 5 0x5100).toList ++ [syskill sampleFrame 3 5]))
    (fun d => d.kernel.accepted = [(3, 5)]) (by decide +kernel)
  exact ⟨start, d, booted, accepted, signals_delivered booted reached⟩

/-- Signal 5 arrives while the handler of signal 10 runs; when that handler has returned, the
process is back at its first level and signal 5 was not delivered. -/
theorem signals_delivered_broken :
    ∃ d, Reaches sampleEnv anyRequest (creatorRun ++
        ((syssignal sampleFrame 10 0x5100).toList ++
          ((syssignal sampleFrame 5 0x5200).toList ++
            [syskill sampleFrame 3 10, syskill sampleFrame 3 5,
              syssigreturn sampleFrame 0x80000 0 0]))) d ∧
      (d.kernel.proctab 3).currSigLvl = 0 ∧ (d.kernel.proctab 3).state ≠ .stopped ∧
      d.kernel.accepted.count (3, 5) = 1 ∧ d.kernel.pushed.count (3, 5) = 0 := by
  obtain ⟨d, reached, outcome⟩ := reaches_of_check sampleEnv anyRequest (creatorRun ++
      ((syssignal sampleFrame 10 0x5100).toList ++
        ((syssignal sampleFrame 5 0x5200).toList ++
          [syskill sampleFrame 3 10, syskill sampleFrame 3 5,
            syssigreturn sampleFrame 0x80000 0 0])))
    (fun d => (d.kernel.proctab 3).currSigLvl = 0 ∧
      (d.kernel.proctab 3).state ≠ .stopped ∧ d.kernel.accepted.count (3, 5) = 1 ∧
      d.kernel.pushed.count (3, 5) = 0) (by decide +kernel)
  exact ⟨d, reached, outcome⟩

end XerosKernel

