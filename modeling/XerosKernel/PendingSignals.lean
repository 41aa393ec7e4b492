import XerosKernel.ContextFrame
import XerosKernel.SignalDelivery
import XerosKernel.SlotReuse

/-!
The signals that are marked in `sigmask`. The loop of `SYS_SIGRETURN` that should take the mark
of the signal whose handler returns starts at a negative number and ends at once, so a mark
stays for the rest of the run.
-/

namespace XerosKernel

open Execution

def Pending (kernel : Kernel) (p : Slot) (signum : Fin MAX_SIG) : Prop :=
  (kernel.proctab p).sigmask &&& signalMask signum ≠ 0

instance (kernel : Kernel) (p : Slot) (signum : Fin MAX_SIG) :
    Decidable (Pending kernel p signum) := inferInstanceAs (Decidable (_ ≠ _))

def Unmarks (kernel kernel' : Kernel) (p : Slot) (signum : Fin MAX_SIG) : Prop :=
  (kernel'.proctab p).sigmask = (kernel.proctab p).sigmask &&& ~~~signalMask signum

instance (kernel kernel' : Kernel) (p : Slot) (signum : Fin MAX_SIG) :
    Decidable (Unmarks kernel kernel' p signum) := inferInstanceAs (Decidable (_ = _))

/-! Masks. -/

theorem sigreturnMask_eq (sigmask : Word) : sigreturnMask sigmask = sigmask := by
  unfold sigreturnMask sigreturnLoop
  exact if_neg (by decide)

theorem signalMask_ne (signum : Fin MAX_SIG) : signalMask signum ≠ 0 := by
  revert signum
  decide

theorem marked_or {mask bit : Word} (more : Word) (marked : mask &&& bit ≠ 0) :
    (mask ||| more) &&& bit ≠ 0 := by
  intro none
  rw [BitVec.and_or_distrib_right] at none
  exact marked (BitVec.or_eq_zero_iff.mp none).1

theorem or_marked (mask : Word) {bit : Word} (nonzero : bit ≠ 0) : (mask ||| bit) &&& bit ≠ 0 := by
  intro none
  rw [BitVec.and_or_distrib_right, BitVec.and_self] at none
  exact nonzero (BitVec.or_eq_zero_iff.mp none).2

/-! Rounds. -/

variable {env : Env} {kernel kernel' kernel'' : Kernel} {p target : Slot} {signum : Fin MAX_SIG}
  {d d' : Dispatcher} {trap : Trap}

/-- Marks stay, and a signal is delivered only with its mark. -/
structure Marks (kernel kernel' : Kernel) : Prop where
  kept : ∀ p signum, Pending kernel p signum → Pending kernel' p signum
  pushed : ∀ p signum, (p, signum) ∈ kernel'.pushed →
    (p, signum) ∈ kernel.pushed ∨ Pending kernel' p signum

namespace Marks

theorem of_same (sigmask : ∀ i, (kernel'.proctab i).sigmask = (kernel.proctab i).sigmask)
    (history : SameHistory kernel kernel') : Marks kernel kernel' where
  kept := by
    intro p signum pending
    rwa [Pending, sigmask]
  pushed := by
    intro p signum delivered
    rw [history.pushed] at delivered
    exact Or.inl delivered

theorem trans (first : Marks kernel kernel') (second : Marks kernel' kernel'') :
    Marks kernel kernel'' where
  kept := fun p signum pending => second.kept p signum (first.kept p signum pending)
  pushed := by
    intro p signum delivered
    rcases second.pushed p signum delivered with earlier | pending
    · rcases first.pushed p signum earlier with earlier | pending
      · exact Or.inl earlier
      · exact Or.inr (second.kept p signum pending)
    · exact Or.inr pending

theorem moves (moves : Moves kernel kernel') : Marks kernel kernel' := by
  refine of_same (fun i => ?_) moves.toRequeues.history
  have personal := congrArg Pcb.sigmask (moves.personal i)
  exact personal

theorem modify (kernel : Kernel) (p : Slot) (change : Pcb → Pcb)
    (same : ∀ pcb, (change pcb).sigmask = pcb.sigmask) : Marks kernel (kernel.modify p change) :=
  of_same (fun i => kernel.modify_same p change Pcb.sigmask (same _) i) ⟨rfl, rfl⟩

theorem resume (kernel : Kernel) (p : Slot) (value : Word) :
    Marks kernel (resume p (value, kernel)).kernel :=
  modify kernel p (fun pcb => { pcb with ret := value }) fun _ => rfl

end Marks

theorem posted_marks (kernel : Kernel) (p : Slot) (signum : Fin MAX_SIG) :
    Marks kernel (posted kernel p signum) ∧ Pending (posted kernel p signum) p signum := by
  refine ⟨⟨fun i other pending => ?_, fun _ _ delivered => Or.inl delivered⟩, ?_⟩
  · by_cases isTarget : i = p
    · subst isTarget
      simpa [Pending, posted] using marked_or (signalMask signum) pending
    · simpa [Pending, posted, isTarget] using pending
  · simpa [Pending, posted] using
      or_marked (kernel.proctab p).sigmask (signalMask_ne signum)

theorem pushFrame_marks (pending : Pending kernel p signum) :
    Marks kernel (pushFrame env kernel p signum) := by
  have sigmask : ∀ i, ((pushFrame env kernel p signum).proctab i).sigmask =
      (kernel.proctab i).sigmask := by
    intro i
    by_cases isP : i = p <;> simp [pushFrame, isP]
  have kept : ∀ i other, Pending kernel i other →
      Pending (pushFrame env kernel p signum) i other := by
    intro i other pending
    rwa [Pending, sigmask]
  refine ⟨kept, fun i other delivered => ?_⟩
  have history : (pushFrame env kernel p signum).pushed = kernel.pushed ++ [(p, signum)] := rfl
  rw [history, List.mem_append, List.mem_singleton] at delivered
  rcases delivered with earlier | isNew
  · exact Or.inl earlier
  · obtain ⟨rfl, rfl⟩ := Prod.mk.inj isNew
    exact Or.inr (kept i other pending)

theorem signal_marks (env : Env) (kernel : Kernel) (target : Slot) (signum : Fin MAX_SIG) :
    Marks kernel (signal env kernel target signum).2 := by
  obtain ⟨marks, pending⟩ := posted_marks kernel target signum
  rcases signal_cases env kernel target signum with ⟨_, same⟩ | ⟨_, ⟨_, same⟩ | ⟨_, same⟩⟩ <;>
    rw [same]
  · exact Marks.moves Moves.refl
  · exact marks.trans (pushFrame_marks pending)
  · exact marks

theorem serve_marks {ports : Ports} {request : Request}
    (served : serve env kernel p ports request = some d) : Marks kernel d.kernel := by
  cases request with
  | kill pid signum =>
      obtain ⟨⟨value, kernel'⟩, killed, rfl⟩ := Option.map_eq_some_iff.mp served
      refine Marks.trans ?_ (Marks.resume kernel' p value)
      rcases kill_cases killed with ⟨_, rfl⟩ | ⟨target, woken, _, moves, rfl⟩
      · exact Marks.moves Moves.refl
      · exact (Marks.moves moves).trans (signal_marks env woken target _)
  | create fp stack =>
      obtain ⟨⟨value, kernel'⟩, created, rfl⟩ := Option.map_eq_some_iff.mp served
      refine Marks.trans (Marks.of_same (fun i => ?_) (create_history created))
        (Marks.resume kernel' p value)
      have inherited := congrArg Pcb.sigmask (create_inherited created i)
      exact inherited
  | sigreturn old_sp old_ret sigLvl =>
      cases served
      refine Marks.trans (Marks.modify kernel p _ fun pcb => ?_) (Marks.resume _ p old_ret)
      exact sigreturnMask_eq pcb.sigmask
  | _ =>
      have same := serve_signalling (by trivial) served
      refine Marks.of_same (fun i => ?_) (serve_history (by simp) served)
      have sigmask := congrArg Pcb.sigmask (same i)
      exact sigmask

theorem entered_sigmask (d : Dispatcher) (trap : Trap) (i : Slot) :
    ((d.entered trap).proctab i).sigmask = (d.kernel.proctab i).sigmask := by
  have inherited := congrArg Pcb.sigmask (contextswitch_inherited d.kernel d.current i trap)
  exact inherited

theorem dispatch_marks (stepped : dispatch env d trap = some d') : Marks d.kernel d'.kernel := by
  have entered : Marks d.kernel (d.entered trap) := Marks.of_same (entered_sigmask d trap)
    (contextswitch_private d.kernel d.current trap).history
  exact entered.trans (serve_marks stepped)

theorem kill_pending {pid number : Word} (env : Env)
    (inside : ¬ (number.toInt < 0 ∨ 31 < number.toInt)) (found : findPCB kernel pid = some target)
    (pending : Pending kernel target (Fin.ofNat MAX_SIG number.toNat)) :
    kill env kernel pid number = some (0, kernel) := by
  have marked : (kernel.proctab target).sigmask &&&
      signalMask (Fin.ofNat MAX_SIG number.toNat) ≠ 0 := pending
  simp only [kill, if_neg inside, found, if_pos marked]

/-! Runs. -/

theorem run_pending {traps : List Trap} (pending : Pending d.kernel p signum)
    (ran : run (dispatch env) d traps = some d') : Pending d'.kernel p signum :=
  run_invariant (fun _ _ _ pending _ stepped => (dispatch_marks stepped).kept p signum pending)
    pending along_true ran

theorem delivered_pending {guard : Kernel → Slot → Request → Prop} {traps : List Trap}
    (reached : Reaches env guard traps d) (delivered : (p, signum) ∈ d.kernel.pushed) :
    Pending d.kernel p signum := by
  obtain ⟨start, booted, along, ran⟩ := reached
  have none := (boot_history booted).2
  have kept : ∀ (d : Dispatcher) trap (d' : Dispatcher),
      ((p, signum) ∈ d.kernel.pushed → Pending d.kernel p signum) → Guarded guard d trap →
      dispatch env d trap = some d' →
      ((p, signum) ∈ d'.kernel.pushed → Pending d'.kernel p signum) := by
    intro d trap d' marked _ stepped delivered
    have marks := dispatch_marks stepped
    rcases marks.pushed p signum delivered with earlier | pending
    · exact marks.kept p signum (marked earlier)
    · exact pending
  have initial : (p, signum) ∈ start.kernel.pushed → Pending start.kernel p signum := by
    intro delivered
    rw [none] at delivered
    cases delivered
  exact run_invariant kept initial along ran delivered

/-- A return from the handler of a signal that was delivered takes no mark, not even that of the
signal, and from then on every call of `kill` with that signal returns 0 and does nothing. -/
theorem sigreturn_never_unmarks {env : Env} {traps : List Trap} {d d' : Dispatcher} {trap : Trap}
    {signum : Fin MAX_SIG} {old_sp old_ret sigLvl : Word} (reached : Reaches env anyRequest traps d)
    (delivered : (d.current, signum) ∈ d.kernel.pushed)
    (returns : d.request trap = .sigreturn old_sp old_ret sigLvl)
    (stepped : dispatch env d trap = some d') :
    (d'.kernel.proctab d.current).sigmask = (d.kernel.proctab d.current).sigmask ∧
    ¬ Unmarks d.kernel d'.kernel d.current signum ∧
    ∀ later d₁ trap₁ pid, run (dispatch env) d' later = some d₁ →
      findPCB (d₁.entered trap₁) pid = some d.current →
      d₁.request trap₁ = .kill pid (BitVec.ofNat 32 signum) →
      dispatch env d₁ trap₁ = some (resume d₁.current (0, d₁.entered trap₁)) := by
  have pending := delivered_pending reached delivered
  have pending' := (dispatch_marks stepped).kept _ _ pending
  refine ⟨?_, ?_, ?_⟩
  · rw [Dispatcher.dispatch_eq, returns, serve, Option.some.injEq] at stepped
    rw [← stepped, ← entered_sigmask d trap]
    simp [resume, sigreturnMask_eq]
  · intro unmarks
    refine pending' ?_
    rw [unmarks, BitVec.and_assoc, BitVec.not_and_self]
    exact BitVec.and_zero
  · intro later d₁ trap₁ pid ran found kills
    have marked : Pending (d₁.entered trap₁) d.current signum := by
      rw [Pending, entered_sigmask]
      exact run_pending pending' ran
    have number : ∀ signum : Fin MAX_SIG,
        ¬ ((BitVec.ofNat 32 signum).toInt < 0 ∨ 31 < (BitVec.ofNat 32 signum).toInt) ∧
        Fin.ofNat MAX_SIG (BitVec.ofNat 32 signum).toNat = signum := by decide
    obtain ⟨inside, same⟩ := number signum
    have ignored := kill_pending env inside found (by rwa [same])
    rw [Dispatcher.dispatch_eq, kills, serve, ignored]
    rfl

def handlerRun : List Trap :=
  creatorRun ++ ((syssignal sampleFrame 5 0x5100).toList ++ [syskill sampleFrame 3 5])

theorem sigreturn_never_unmarks_five : ∃ d d',
    dispatch sampleEnv d (syssigreturn sampleFrame 0x80000 0 0) = some d' ∧
    ¬ Unmarks d.kernel d'.kernel 3 5 ∧
    dispatch sampleEnv d' (syskill sampleFrame 3 5) =
      some (resume 3 (0, d'.entered (syskill sampleFrame 3 5))) := by
  obtain ⟨d, reached, outcome⟩ := reaches_of_check sampleEnv anyRequest handlerRun
    (fun d => d.current = 3 ∧ (3, 5) ∈ d.kernel.pushed ∧
      d.request (syssigreturn sampleFrame 0x80000 0 0) = .sigreturn 0x80000 0 0 ∧
      ∃ d' ∈ dispatch sampleEnv d (syssigreturn sampleFrame 0x80000 0 0),
        d'.current = 3 ∧ findPCB (d'.entered (syskill sampleFrame 3 5)) 3 = some 3 ∧
        d'.request (syskill sampleFrame 3 5) = .kill 3 5) (by decide +kernel)
  obtain ⟨isCurrent, delivered, returns, d', stepped, isCurrent', found, kills⟩ := outcome
  have never := sigreturn_never_unmarks reached (isCurrent ▸ delivered) returns stepped
  rw [isCurrent] at never
  have ignored := never.2.2 [] d' (syskill sampleFrame 3 5) 3 rfl found kills
  rw [isCurrent'] at ignored
  exact ⟨d, d', stepped, never.2.1, ignored⟩

/-- Behind the return the mark is still there, and the second signal is not delivered. -/
theorem sigreturn_unmarks_broken : ∃ d d' d₁, Reaches sampleEnv anyRequest handlerRun d ∧
    (d.current, 5) ∈ d.kernel.pushed ∧ (d.kernel.proctab d.current).currSigLvl = 5 ∧
    d.request (syssigreturn sampleFrame 0x80000 0 0) = .sigreturn 0x80000 0 0 ∧
    dispatch sampleEnv d (syssigreturn sampleFrame 0x80000 0 0) = some d' ∧
    dispatch sampleEnv d' (syskill sampleFrame 3 5) = some d₁ ∧
    ¬ Unmarks d.kernel d'.kernel d.current 5 ∧ d₁.kernel.pushed = d'.kernel.pushed := by
  obtain ⟨d, reached, outcome⟩ := reaches_of_check sampleEnv anyRequest handlerRun
    (fun d => (d.current, 5) ∈ d.kernel.pushed ∧ (d.kernel.proctab d.current).currSigLvl = 5 ∧
      d.request (syssigreturn sampleFrame 0x80000 0 0) = .sigreturn 0x80000 0 0 ∧
      ∃ d' ∈ dispatch sampleEnv d (syssigreturn sampleFrame 0x80000 0 0),
        ∃ d₁ ∈ dispatch sampleEnv d' (syskill sampleFrame 3 5),
          ¬ Unmarks d.kernel d'.kernel d.current 5 ∧ d₁.kernel.pushed = d'.kernel.pushed)
    (by decide +kernel)
  obtain ⟨delivered, level, returns, d', stepped, d₁, killed, marked, same⟩ := outcome
  exact ⟨d, d', d₁, reached, delivered, level, returns, stepped, killed, marked, same⟩

end XerosKernel
