import XerosKernel.ContextFrame
import XerosKernel.KillEffects

/-!
Who writes the field `ret` of a process. A request answers its caller; besides that, `kill` and
`tick` give a result to a process that they wake.
-/

namespace XerosKernel

/-- The value that a call gives to its caller, at once or when the caller goes on undisturbed. The
other calls return nothing, or only when the process is woken. -/
def answer (env : Env) (kernel : Kernel) (p : Slot) : Request → Option Word
  | .create fp stack => (create env kernel fp stack).map Prod.fst
  | .kill pid signum => (kill env kernel pid signum).map Prod.fst
  | .cputimes ps => some (getCPUtimes env kernel p ps).1
  | .puts _ => some 0
  | .getpid => some (kernel.proctab p).pid
  | .sighandler signum handler =>
      if (env.HOLESTART ≤ handler ∧ handler ≤ env.HOLEEND) ∨ env.maxaddr < handler then some 0
      else some ((kernel.proctab p).sigtab (Fin.ofNat MAX_SIG signum.toNat))
  | .wait pid => if pid = 0 ∨ findPCB kernel pid = none then some (-1) else some 0
  | .openDevice device_no => some (diOpen kernel p device_no).1
  | .close fd => (diClose kernel p fd).map Prod.fst
  | .read fd buff bufflen => ((diRead env kernel p fd buff bufflen).map Prod.fst).filter (· ≠ -3)
  | .write fd buff bufflen => (diWrite env kernel p fd buff bufflen).map Prod.fst
  | .ioctl fd command arg3 => (diIoctl env kernel p fd command arg3).map Prod.fst
  | .yield | .stop | .sleep _ | .timer | .sigreturn _ _ _ | .keyboard | .bad _ => none

variable {env : Env} {kernel kernel' : Kernel} {p i : Slot} {ports : Ports} {request : Request}
  {d : Dispatcher}

/-! Requests. -/

theorem resume_answers {value : Word}
    (same : (kernel'.proctab i).ret = (kernel.proctab i).ret) :
    ((resume p (value, kernel')).kernel.proctab i).ret =
      if i = p then value else (kernel.proctab i).ret := by
  by_cases isP : i = p
  · rw [if_pos isP, isP, resume_ret]
  · rw [if_neg isP, ← same]
    simp [resume, isP]

theorem ready_ret (kernel : Kernel) (p i : Slot) :
    ((ready kernel p).proctab i).ret = (kernel.proctab i).ret := by
  rw [ready_proctab]

theorem reschedule_state (popped : reschedule kernel = some d) (i : Slot) :
    (d.kernel.proctab i).state = (kernel.proctab i).state :=
  unlinked_same (reschedule_unlinked popped) (·.state) (fun _ => rfl) i

theorem sleep_ret {len : Word} (slept : sleep kernel p len = some kernel') (i : Slot) :
    (kernel'.proctab i).ret = (kernel.proctab i).ret := by
  rcases sleep_cases slept with rfl | same
  · exact ready_ret kernel p i
  · have asleep : ((asleep kernel p).proctab i).ret = (kernel.proctab i).ret :=
      kernel.modify_same p (fun pcb => { pcb with state := .sleep, next := none, prev := none })
        (·.ret) rfl i
    exact (unlinked_same same (·.ret) (fun _ => rfl) i).trans asleep

theorem Driven.ret (driven : Driven kernel kernel') (i : Slot) :
    (kernel'.proctab i).ret = (kernel.proctab i).ret := driven.same (·.ret) (fun _ => rfl) i

theorem serve_answers (keeps : request.KeepsContexts) (notTimer : request ≠ .timer)
    (served : serve env kernel p ports request = some d) (i : Slot) :
    (d.kernel.proctab i).ret =
      if i = p then (answer env kernel p request).getD (kernel.proctab p).ret
      else (kernel.proctab i).ret := by
  have unchanged : ∀ {kernel' : Kernel}, (kernel'.proctab i).ret = (kernel.proctab i).ret →
      (kernel'.proctab i).ret =
        if i = p then (kernel.proctab p).ret else (kernel.proctab i).ret := by
    intro kernel' same
    by_cases isP : i = p
    · rw [if_pos isP, same, isP]
    · rw [if_neg isP, same]
  cases request with
  | create | kill | sigreturn => exact keeps.elim
  | timer => exact absurd rfl notTimer
  | yield =>
      exact unchanged ((reschedule_ret served i).trans (ready_ret kernel p i))
  | stop =>
      refine unchanged ((reschedule_ret served i).trans ?_)
      exact kernel.modify_same p (fun pcb => { pcb with state := .stopped }) (·.ret) rfl i
  | cputimes ps =>
      cases served
      have table := getCPUtimes_table env kernel p ps
      exact resume_answers (congrArg (fun proctab => (proctab i).ret) table)
  | puts str =>
      cases served
      exact resume_answers rfl
  | getpid =>
      cases served
      exact resume_answers rfl
  | sleep len =>
      obtain ⟨kernel', slept, popped⟩ := Option.bind_eq_some_iff.mp served
      exact unchanged ((reschedule_ret popped i).trans (sleep_ret slept i))
  | sighandler signum handler =>
      simp only [answer]
      rcases serve_sighandler served with ⟨outside, rfl⟩ | ⟨inside, rfl⟩
      · rw [if_pos outside]
        exact resume_answers rfl
      · rw [if_neg inside]
        exact resume_answers (kernel.modify_same p _ (·.ret) rfl i)
  | wait pid =>
      simp only [answer]
      rcases serve_wait served with ⟨fails, rfl⟩ | ⟨⟨target, found⟩, nonzero, popped⟩
      · rw [if_pos fails]
        exact resume_answers rfl
      · have waits : ¬ (pid = 0 ∨ findPCB kernel pid = none) := by
          rintro (zero | absent)
          · exact nonzero zero
          · rw [found] at absent
            cases absent
        rw [if_neg waits, reschedule_ret popped, Kernel.modify_proctab]
        by_cases isP : i = p
        · rw [if_pos isP, if_pos isP, Option.getD_some]
        · rw [if_neg isP, if_neg isP]
  | openDevice device_no =>
      cases served
      exact resume_answers ((diOpen_driven kernel p device_no).ret i)
  | close fd =>
      obtain ⟨⟨value, kernel'⟩, closed, rfl⟩ := Option.map_eq_some_iff.mp served
      simp only [answer, closed, Option.map_some, Option.getD_some]
      exact resume_answers ((diClose_driven closed).ret i)
  | read fd buff bufflen =>
      obtain ⟨⟨value, kernel'⟩, read, rest⟩ := Option.bind_eq_some_iff.mp served
      have same := (diRead_driven read).ret i
      simp only [answer, read, Option.map_some]
      simp only at rest
      by_cases blocked : value = -3
      · rw [if_pos blocked] at rest
        have stopped : ¬ decide (value ≠ -3) = true := by
          rw [decide_eq_true_eq]
          exact not_not.mpr blocked
        rw [Option.filter_some, if_neg stopped]
        exact unchanged ((reschedule_ret rest i).trans same)
      · rw [if_neg blocked] at rest
        rw [Option.filter_some, if_pos (decide_eq_true blocked)]
        cases rest
        exact resume_answers same
  | write fd buff bufflen =>
      obtain ⟨⟨value, kernel'⟩, written, rfl⟩ := Option.map_eq_some_iff.mp served
      simp only [answer, written, Option.map_some, Option.getD_some]
      exact resume_answers ((diWrite_driven written).ret i)
  | ioctl fd command arg3 =>
      obtain ⟨⟨value, kernel'⟩, controlled, rfl⟩ := Option.map_eq_some_iff.mp served
      simp only [answer, controlled, Option.map_some, Option.getD_some]
      exact resume_answers ((diIoctl_driven controlled).ret i)
  | keyboard =>
      cases served
      exact unchanged ((kbdHandler_driven kernel p ports).ret i)
  | bad r =>
      cases served
      exact unchanged rfl

theorem create_ret {fp stack value : Word}
    (created : create env kernel fp stack = some (value, kernel')) (i : Slot) :
    (kernel'.proctab i).ret = (kernel.proctab i).ret := by
  rcases create_cases created with outside | ⟨slot, base, esp, pid, _, _, outside, rfl⟩
  · rw [outside.table]
  · rw [ready_ret, ← outside.table]
    exact base.modify_same slot (fun pcb => { pcb with esp := esp, state := .ready, pid := pid })
      (·.ret) rfl i

theorem create_esp {fp stack value : Word}
    (created : create env kernel fp stack = some (value, kernel'))
    (other : ¬ ((kernel.proctab i).state = .stopped ∧ (kernel'.proctab i).state ≠ .stopped)) :
    (kernel'.proctab i).esp = (kernel.proctab i).esp := by
  rcases create_cases created with outside | ⟨slot, base, esp, pid, free, _, outside, rfl⟩
  · rw [outside.table]
  · by_cases isSlot : i = slot
    · subst isSlot
      exact absurd ⟨free, by simp [ready_proctab]⟩ other
    · rw [ready_proctab, ← outside.table]
      simp [isSlot]

/-! The timer. -/

inductive OnSleepQueue (kernel : Kernel) : Slot → Prop
  | first {i : Slot} (head : kernel.sleepQ = some i) : OnSleepQueue kernel i
  | next {q i : Slot} (before : OnSleepQueue kernel q) (link : kernel.link q = some i) :
      OnSleepQueue kernel i

structure StaysWithin (within : Slot → Prop) (kernel : Kernel) : Prop where
  first : ∀ i, kernel.sleepQ = some i → within i
  next : ∀ q i, within q → kernel.link q = some i → within i

def LeftOrWoken (within : Slot → Prop) (kernel kernel' : Kernel) (i : Slot) : Prop :=
  ((kernel'.proctab i).ret = (kernel.proctab i).ret ∧
    (kernel'.proctab i).state = (kernel.proctab i).state) ∨
  (within i ∧ (kernel'.proctab i).ret = 0 ∧ (kernel'.proctab i).state = .ready)

variable {within : Slot → Prop}

theorem StaysWithin.awakened (stays : StaysWithin within kernel)
    (isFirst : kernel.sleepQ = some p) : StaysWithin within (awakened kernel p) := by
  have isIn := stays.first p isFirst
  refine ⟨fun i head => ?_, fun q i inside link => ?_⟩
  · rw [XerosKernel.awakened, ready_sleepQ] at head
    exact stays.next p i isIn head
  · -- the end of the ready queue may be on the sleep queue, and is linked to `p`
    rw [XerosKernel.awakened, ready_link] at link
    split at link
    · cases link
      exact isIn
    · split at link
      · cases link
      · rename_i other
        refine stays.next q i inside ?_
        simpa [Kernel.link, other] using link

theorem awakened_outcome (kernel : Kernel) (isIn : within p) (i : Slot) :
    LeftOrWoken within kernel (awakened kernel p) i := by
  by_cases isP : i = p
  · subst isP
    refine Or.inr ⟨isIn, ?_, ?_⟩
    · rw [awakened, ready_ret]
      simp
    · rw [awakened, ready_proctab]
      simp
  · refine Or.inl ⟨?_, ?_⟩
    · rw [awakened, ready_ret]
      simp [isP]
    · rw [awakened, ready_proctab]
      simp [isP]

theorem LeftOrWoken.trans {kernel'' : Kernel} (first : LeftOrWoken within kernel kernel' i)
    (second : LeftOrWoken within kernel' kernel'' i) : LeftOrWoken within kernel kernel'' i := by
  rcases second with ⟨ret, state⟩ | woken
  · rw [LeftOrWoken, ret, state]
    exact first
  · exact Or.inr woken

theorem tickLoop_outcome {fuel : Nat} (stays : StaysWithin within kernel)
    (looped : tickLoop fuel kernel = some kernel') (i : Slot) :
    LeftOrWoken within kernel kernel' i := by
  induction fuel generalizing kernel with
  | zero => cases looped
  | succ fuel ih =>
      unfold tickLoop at looped
      split at looped
      · cases looped
        exact Or.inl ⟨rfl, rfl⟩
      · rename_i tmp isFirst
        split at looped
        · cases looped
          exact Or.inl ⟨rfl, rfl⟩
        · have woken := awakened_outcome kernel (stays.first tmp isFirst) i
          exact woken.trans (ih (stays.awakened isFirst) looped)

theorem tick_outcome (ticked : tick kernel = some kernel') (i : Slot) :
    LeftOrWoken (OnSleepQueue kernel) kernel kernel' i := by
  unfold tick at ticked
  split at ticked
  · cases ticked
    exact Or.inl ⟨rfl, rfl⟩
  · rename_i first isFirst
    have counted : ∀ {α : Type} (field : Pcb → α),
        (∀ pcb diff, field { pcb with sleepdiff := diff } = field pcb) → ∀ i,
        field (((kernel.modify first fun pcb =>
          { pcb with sleepdiff := pcb.sleepdiff - 1 }).proctab i)) = field (kernel.proctab i) :=
      fun field kept i => kernel.modify_same first (fun pcb =>
        { pcb with sleepdiff := pcb.sleepdiff - 1 }) field (kept _ _) i
    have stays : StaysWithin (OnSleepQueue kernel) (kernel.modify first fun pcb =>
        { pcb with sleepdiff := pcb.sleepdiff - 1 }) := by
      refine ⟨fun i head => .first head, fun q i inside link => .next inside ?_⟩
      rw [← link]
      exact (counted (·.next) (fun _ _ => rfl) q).symm
    have outcome := tickLoop_outcome stays ticked i
    rw [LeftOrWoken, counted (·.ret) (fun _ _ => rfl), counted (·.state) fun _ _ => rfl] at outcome
    exact outcome

end XerosKernel
