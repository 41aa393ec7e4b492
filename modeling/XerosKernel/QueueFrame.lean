import XerosKernel.LocalCalls
import XerosKernel.SleepQueue

/-!
What moving processes between the queues leaves alone, whatever shape the queues are in:
signals, descriptors and times of every process, and which processes have stopped.
-/

namespace XerosKernel

def Pcb.personal (pcb : Pcb) : Pcb :=
  { pcb with
    next := none, prev := none, state := .stopped, ret := 0, sleepdiff := 0, waitpid := 0 }

/-- Only links, states and results were written, no process was stopped, and waits were at
most forgotten. -/
structure Requeues (kernel kernel' : Kernel) : Prop where
  accepted : kernel'.accepted = kernel.accepted
  pushed : kernel'.pushed = kernel.pushed
  personal : ∀ i, (kernel'.proctab i).personal = (kernel.proctab i).personal
  stopped : ∀ i, (kernel'.proctab i).state = .stopped → (kernel.proctab i).state = .stopped
  waitpid : ∀ i, (kernel'.proctab i).waitpid = (kernel.proctab i).waitpid ∨
    (kernel'.proctab i).waitpid = 0

variable {kernel kernel' kernel'' : Kernel} {p : Slot}

namespace Requeues

theorem trans (first : Requeues kernel kernel') (second : Requeues kernel' kernel'') :
    Requeues kernel kernel'' where
  accepted := second.accepted.trans first.accepted
  pushed := second.pushed.trans first.pushed
  personal := fun i => (second.personal i).trans (first.personal i)
  stopped := fun i state => first.stopped i (second.stopped i state)
  waitpid := by
    intro i
    rcases second.waitpid i with same | forgotten
    · rw [same]
      exact first.waitpid i
    · exact Or.inr forgotten

end Requeues

structure Moves (kernel kernel' : Kernel) : Prop extends Requeues kernel kernel' where
  kbd : kernel'.kbd = kernel.kbd
  blocked : ∀ i, (kernel'.proctab i).state = .blocked → (kernel.proctab i).state = .blocked

namespace Moves

theorem refl : Moves kernel kernel :=
  ⟨⟨rfl, rfl, fun _ => rfl, fun _ => id, fun _ => Or.inl rfl⟩, rfl, fun _ => id⟩

theorem trans (first : Moves kernel kernel') (second : Moves kernel' kernel'') :
    Moves kernel kernel'' where
  toRequeues := first.toRequeues.trans second.toRequeues
  kbd := second.kbd.trans first.kbd
  blocked := fun i state => first.blocked i (second.blocked i state)

theorem of_unlinked (same : kernel'.unlinked = kernel.unlinked) : Moves kernel kernel' where
  accepted := by
    have accepted := congrArg Kernel.accepted same
    exact accepted
  pushed := by
    have pushed := congrArg Kernel.pushed same
    exact pushed
  personal := by
    intro i
    have personal := congrArg (fun k : Kernel => (k.proctab i).personal) same
    exact personal
  stopped := by
    intro i state
    have unchanged := congrArg (fun k : Kernel => (k.proctab i).state) same
    exact unchanged.symm.trans state
  waitpid := by
    intro i
    have waitpid := congrArg (fun k : Kernel => (k.proctab i).waitpid) same
    exact Or.inl waitpid
  kbd := by
    have kbd := congrArg Kernel.kbd same
    exact kbd
  blocked := by
    intro i state
    have unchanged := congrArg (fun k : Kernel => (k.proctab i).state) same
    exact unchanged.symm.trans state

theorem modify (change : Pcb → Pcb) (personal : ∀ pcb, (change pcb).personal = pcb.personal)
    (state : ∀ pcb, (change pcb).state = pcb.state ∨ (change pcb).state = .ready ∨
      (change pcb).state = .sleep)
    (waitpid : ∀ pcb, (change pcb).waitpid = pcb.waitpid ∨ (change pcb).waitpid = 0) :
    Moves kernel (kernel.modify p change) := by
  have kept : ∀ i (target : ProcState), target ≠ .ready → target ≠ .sleep →
      ((kernel.modify p change).proctab i).state = target →
      (kernel.proctab i).state = target := by
    intro i target notReady notSleep reached
    rw [Kernel.modify_proctab] at reached
    split at reached
    · rename_i isP
      rw [← reached] at notReady notSleep ⊢
      rcases state (kernel.proctab i) with same | ready | sleep
      · exact same.symm
      · exact absurd ready notReady
      · exact absurd sleep notSleep
    · exact reached
  exact {
    accepted := rfl
    pushed := rfl
    personal := fun i => kernel.modify_same p change Pcb.personal (personal _) i
    stopped := fun i => kept i .stopped (by simp) (by simp)
    waitpid := by
      intro i
      rw [Kernel.modify_proctab]
      split
      · exact waitpid _
      · exact Or.inl rfl
    kbd := rfl
    blocked := fun i => kept i .blocked (by simp) (by simp) }

end Moves

theorem ready_moves (kernel : Kernel) (p : Slot) : Moves kernel (ready kernel p) where
  accepted := ready_accepted kernel p
  pushed := ready_pushed kernel p
  personal := fun i => by rw [ready_proctab]; rfl
  stopped := by
    intro i state
    rw [ready_proctab] at state
    by_cases isP : i = p
    · simp [isP] at state
    · simpa [isP] using state
  waitpid := fun i => Or.inl (by rw [ready_proctab])
  kbd := ready_kbd kernel p
  blocked := by
    intro i state
    rw [ready_proctab] at state
    by_cases isP : i = p
    · simp [isP] at state
    · simpa [isP] using state

theorem reschedule_unlinked {d : Dispatcher} (popped : reschedule kernel = some d) :
    d.kernel.unlinked = kernel.unlinked := by
  rw [reschedule, next_eq, Option.map_map] at popped
  obtain ⟨first, _, rfl⟩ := Option.map_eq_some_iff.mp popped
  exact popped_unlinked kernel first

theorem reschedule_moves {d : Dispatcher} (popped : reschedule kernel = some d) :
    Moves kernel d.kernel :=
  .of_unlinked (reschedule_unlinked popped)

theorem removeFromReady_unlinked (removed : removeFromReady kernel p = some kernel') :
    kernel'.unlinked = kernel.unlinked := by
  unfold removeFromReady at removed
  split at removed
  · cases removed
    rfl
  · split at removed
    · cases removed
      split <;> rfl
    · split at removed
      · cases removed
      · cases removed
        rfl
      · rename_i prev _
        cases removed
        have before := modify_links kernel prev (fun pcb =>
          { pcb with next := (kernel.proctab p).next }) fun _ => rfl
        split <;> exact (modify_links _ p (fun pcb => { pcb with next := none })
          fun _ => rfl).trans before

theorem asleep_moves (kernel : Kernel) (p : Slot) : Moves kernel (asleep kernel p) :=
  Moves.modify (fun pcb => { pcb with state := .sleep, next := none, prev := none })
    (fun _ => rfl) (fun _ => Or.inr (by simp)) fun _ => Or.inl rfl

theorem sleep_cases {len : Word} (slept : sleep kernel p len = some kernel') :
    kernel' = ready kernel p ∨ kernel'.unlinked = (asleep kernel p).unlinked := by
  unfold sleep at slept
  split at slept
  · cases slept
    exact Or.inl rfl
  · simp only at slept
    split at slept
    · cases slept
      exact Or.inr linkAlone_unlinked
    · split at slept
      · cases slept
        exact Or.inr linkFront_unlinked
      · split at slept
        · cases slept
        · rename_i tmp left _
          have entered : (spliced (asleep kernel p) p tmp left).unlinked =
              (asleep kernel p).unlinked := spliced_unlinked
          split at slept
          · cases slept
            exact Or.inr entered
          · rename_i q _
            cases slept
            refine Or.inr (Eq.trans ?_ entered)
            exact modify_links _ q (fun pcb =>
              { pcb with prev := some p, sleepdiff := pcb.sleepdiff - left }) fun _ => rfl

theorem sleep_moves {len : Word} (slept : sleep kernel p len = some kernel') :
    Moves kernel kernel' := by
  rcases sleep_cases slept with rfl | same
  · exact ready_moves kernel p
  · exact (asleep_moves kernel p).trans (.of_unlinked same)

theorem awakened_moves (kernel : Kernel) (p : Slot) : Moves kernel (awakened kernel p) := by
  have taken : Moves kernel { kernel with sleepQ := kernel.link p } := .of_unlinked rfl
  have woken : Moves kernel (({ kernel with sleepQ := kernel.link p }).modify p fun pcb =>
      { pcb with state := .ready, next := none, prev := none, ret := 0 }) :=
    taken.trans (.modify _ (fun _ => rfl) (fun _ => Or.inr (by simp)) fun _ => Or.inl rfl)
  exact woken.trans (ready_moves _ p)

theorem tickLoop_moves {fuel : Nat} (looped : tickLoop fuel kernel = some kernel') :
    Moves kernel kernel' := by
  induction fuel generalizing kernel with
  | zero => cases looped
  | succ fuel ih =>
      unfold tickLoop at looped
      split at looped
      · cases looped
        exact Moves.refl
      · rename_i tmp _
        split at looped
        · cases looped
          exact Moves.refl
        · exact (awakened_moves kernel tmp).trans (ih looped)

theorem tick_moves (ticked : tick kernel = some kernel') : Moves kernel kernel' := by
  unfold tick at ticked
  split at ticked
  · cases ticked
    exact Moves.refl
  · rename_i first _
    exact Moves.trans (.of_unlinked (modify_links kernel first (fun pcb =>
      { pcb with sleepdiff := pcb.sleepdiff - 1 }) fun _ => rfl)) (tickLoop_moves ticked)

theorem removeFromSleep_unlinked (removed : removeFromSleep kernel p = some kernel') :
    kernel'.unlinked = kernel.unlinked := by
  unfold removeFromSleep at removed
  split at removed
  · cases removed
    rfl
  · split at removed
    · simp only at removed
      split at removed
      · cases removed
        rfl
      · rename_i q _
        cases removed
        exact modify_links _ q (fun pcb =>
          { pcb with sleepdiff := pcb.sleepdiff + (kernel.proctab p).sleepdiff }) fun _ => rfl
    · split at removed
      · cases removed
      · cases removed
        rfl
      · rename_i prev _
        have before := modify_links kernel prev (fun pcb =>
          { pcb with next := (kernel.proctab p).next }) fun _ => rfl
        simp only at removed
        split at removed
        · cases removed
          exact before
        · rename_i q _
          cases removed
          have behind := modify_links (kernel.modify prev fun pcb =>
            { pcb with next := (kernel.proctab p).next }) q (fun pcb =>
            { pcb with sleepdiff := pcb.sleepdiff +
              ((kernel.modify prev fun pcb => { pcb with next := (kernel.proctab p).next }).proctab
                p).sleepdiff }) fun _ => rfl
          exact ((modify_links _ p (fun pcb => { pcb with next := none }) fun _ => rfl).trans
            behind).trans before

theorem killUnlink_unlinked (removed : killUnlink kernel p = some kernel') :
    kernel'.unlinked = kernel.unlinked := by
  unfold killUnlink at removed
  split at removed
  · exact removeFromReady_unlinked removed
  · exact removeFromSleep_unlinked removed
  · cases removed
    rfl

/-- The relation holds between the kernels before and after each write that `kill` makes in front of
its call of `signal`. -/
structure Waking (related : Kernel → Kernel → Prop) : Prop where
  refl : ∀ kernel, related kernel kernel
  trans : ∀ {kernel kernel' kernel''}, related kernel kernel' → related kernel' kernel'' →
    related kernel kernel''
  ready : ∀ kernel p, related kernel (ready kernel p)
  answer : ∀ kernel p value, related kernel (kernel.modify p fun pcb => { pcb with ret := value })
  forget : ∀ kernel p, related kernel (kernel.modify p fun pcb => { pcb with waitpid := 0 })
  unlinked : ∀ {kernel kernel'}, kernel'.unlinked = kernel.unlinked → related kernel kernel'

namespace Waking

variable {related : Kernel → Kernel → Prop}

theorem answered (waking : Waking related) (kernel : Kernel) (p : Slot) (value : Word) :
    related kernel
      (XerosKernel.ready (kernel.modify p fun pcb => { pcb with ret := value }) p) :=
  waking.trans (waking.answer kernel p value) (waking.ready _ p)

theorem killWake (waking : Waking related) (woken : killWake kernel p = some kernel') :
    related kernel kernel' := by
  unfold XerosKernel.killWake at woken
  have first : related kernel (if (kernel.proctab p).state = .wait then
      XerosKernel.ready (kernel.modify p fun pcb => { pcb with ret := -666 }) p else kernel) := by
    split
    · exact waking.answered kernel p _
    · exact waking.refl kernel
  generalize (if (kernel.proctab p).state = .wait then
    XerosKernel.ready (kernel.modify p fun pcb => { pcb with ret := -666 }) p else kernel) = middle
    at first woken
  simp only at woken
  split at woken
  · split at woken
    · cases woken
    · cases woken
      exact waking.trans first (waking.answered middle p _)
  · cases woken
    exact first

theorem killUnlink (waking : Waking related) (removed : killUnlink kernel p = some kernel') :
    related kernel kernel' :=
  waking.unlinked (killUnlink_unlinked removed)

theorem wakeWaiters (waking : Waking related) (kernel : Kernel) (target : Slot) :
    related kernel (wakeWaiters kernel target) := by
  unfold XerosKernel.wakeWaiters
  generalize List.finRange MAX_PROC = procs
  induction procs generalizing kernel with
  | nil => exact waking.refl kernel
  | cons i rest ih =>
      rw [List.foldl_cons]
      refine waking.trans ?_ (ih _)
      split
      · exact waking.trans (waking.ready kernel i) (waking.forget _ i)
      · exact waking.refl kernel

end Waking

theorem moves_waking : Waking Moves where
  refl := fun _ => Moves.refl
  trans := Moves.trans
  ready := ready_moves
  answer := fun _ _ value => Moves.modify (fun pcb => { pcb with ret := value }) (fun _ => rfl)
    (fun _ => Or.inl rfl) fun _ => Or.inl rfl
  forget := fun _ _ => Moves.modify (fun pcb => { pcb with waitpid := 0 }) (fun _ => rfl)
    (fun _ => Or.inl rfl) fun _ => Or.inr rfl
  unlinked := Moves.of_unlinked

theorem killWake_moves (woken : killWake kernel p = some kernel') : Moves kernel kernel' :=
  moves_waking.killWake woken

theorem wakeWaiters_moves (kernel : Kernel) (target : Slot) :
    Moves kernel (wakeWaiters kernel target) := moves_waking.wakeWaiters kernel target

/-- A call of `kill` is dropped, or it moves processes between queues and calls `signal`. -/
theorem kill_cases {env : Env} {pid signum value : Word}
    (killed : kill env kernel pid signum = some (value, kernel')) :
    killTarget kernel pid signum = none ∧ kernel' = kernel ∨
    ∃ target woken, killTarget kernel pid signum = some target ∧ Moves kernel woken ∧
      kernel' = (signal env woken target (Fin.ofNat MAX_SIG signum.toNat)).2 := by
  cases reached : killTarget kernel pid signum with
  | none =>
      obtain ⟨_, dropped⟩ := kill_dropped env reached
      rw [dropped] at killed
      cases killed
      exact Or.inl ⟨rfl, rfl⟩
  | some target =>
      obtain ⟨_, woken, wakes, parts⟩ := kill_parts reached killed
      have first := killWake_moves wakes
      rcases parts with ⟨_, result⟩ | ⟨fatal, unlinked, unlinks, result⟩
      · exact Or.inr ⟨target, woken, rfl, first, result⟩
      · have released := (first.trans (.of_unlinked (killUnlink_unlinked unlinks))).trans
          (wakeWaiters_moves unlinked target)
        refine Or.inr ⟨target, _, rfl, released, ?_⟩
        rw [fatal]
        exact result

/-! The same without the keyboard. -/

theorem ready_requeues (kernel : Kernel) (p : Slot) : Requeues kernel (ready kernel p) :=
  (ready_moves kernel p).toRequeues

theorem reschedule_requeues {d : Dispatcher} (popped : reschedule kernel = some d) :
    Requeues kernel d.kernel := (reschedule_moves popped).toRequeues

theorem sleep_requeues {len : Word} (slept : sleep kernel p len = some kernel') :
    Requeues kernel kernel' := (sleep_moves slept).toRequeues

theorem tick_requeues (ticked : tick kernel = some kernel') : Requeues kernel kernel' :=
  (tick_moves ticked).toRequeues

end XerosKernel
