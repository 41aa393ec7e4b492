import XerosKernel.WaitGraph
import XerosKernel.Fairness
import XerosKernel.WaitTermination

/-!
Processes that wait for each other. In a run of attended requests a waiting process either waits,
through others, for a process that does not wait, or it is stuck behind a cycle of waits; a cycle,
and all that is stuck behind it, never runs again unless a signal is sent to one of its processes.
-/

namespace XerosKernel

open Execution Relation WaitGraph

def WaitsOn (kernel : Kernel) (i j : Slot) : Prop :=
  (kernel.proctab i).state = .wait ∧ (kernel.proctab j).state ≠ .stopped ∧
    (kernel.proctab j).pid = (kernel.proctab i).waitpid

instance (kernel : Kernel) (i j : Slot) : Decidable (WaitsOn kernel i j) :=
  inferInstanceAs (Decidable (_ ∧ _))

/-- The processes of `held` wait for each other. -/
def Closed (kernel : Kernel) (held : Finset Slot) : Prop :=
  ∀ i ∈ held, ∃ j ∈ held, WaitsOn kernel i j

/-- No signal is sent to one of the numbers, and the queues stay in order. -/
def SparesHeld (env : Env) (pids : Finset Word) (kernel : Kernel) (p : Slot) (request : Request) :
    Prop :=
  Orderly env kernel p request ∧ ∀ pid ∈ pids, ∀ signum, request ≠ .kill pid signum

namespace Schedule

variable {s s' : Schedule} {p p' i : Slot} {action : Action}

theorem kill_held {target : Slot} {fatal : Bool} (other : i ≠ target)
    (spared : (s.table target).pid ≠ (s.table i).waitpid)
    (done : s.after p (.kill target fatal) = some (s', p')) : s'.table i = s.table i := by
  have interrupted : ∀ j, (s.interrupt target).table j ≠ s.table j → j = target := by
    intro j changed
    rw [interrupt_table] at changed
    by_contra differs
    exact changed (if_neg fun both => differs both.1)
  have same : (s.interrupt target).table i = s.table i := by
    by_contra changed
    exact other (interrupted i changed)
  have pid : ((s.interrupt target).table target).pid = (s.table target).pid := by
    rw [interrupt_table]
    split <;> rfl
  rw [after_table done]
  cases fatal with
  | false => exact same
  | true =>
      have removed := remove_table (s.interrupt target) target
      have stays : i ∉ ((s.interrupt target).remove target).waiting
          (((s.interrupt target).remove target).table target).pid := by
        intro woken
        have number := ((mem_waiting _ i).mp woken).2
        rw [removed, same, pid] at number
        exact spared number.symm
      have kept : (((s.interrupt target).remove target).release target).table i =
          ((s.interrupt target).remove target).table i := if_neg stays
      rw [tableAfter, if_pos rfl, kept, removed, same]

theorem held_after (live : s.Live p) (allows : s.Allows action)
    (done : s.after p action = some (s', p')) (waits : s.state i = .wait)
    (spared : ∀ target fatal, action = .kill target fatal →
      i ≠ target ∧ (s.table target).pid ≠ (s.table i).waitpid) : s'.table i = s.table i := by
  have notP : i ≠ p := by
    rintro rfl
    rw [live.running] at waits
    cases waits
  cases action with
  | create j pid =>
      have other : i ≠ j := by
        rintro rfl
        rw [Allows, waits] at allows
        cases allows
      rw [after_table done, tableAfter, if_neg other]
  | timer =>
      have notWoken : i ∉ (tickEntries s.sleepers).1 := by
        intro woken
        have isKey : i ∈ s.sleepers.map Prod.fst := by
          rw [tickEntries_append]
          exact List.mem_append_left _ woken
        rw [live.sleeping, waits] at isKey
        cases isKey
      rw [after_table done, tableAfter, enqueue_table, if_neg notP, tick_table, if_neg notWoken]
  | kill target fatal =>
      obtain ⟨other, number⟩ := spared target fatal rfl
      exact kill_held other number done
  | stay | drop => exact after_table done i
  | _ => rw [after_table done, tableAfter, if_neg notP]

def Held (s : Schedule) (held : Finset Slot) (pids : Finset Word) : Prop :=
  ∀ i ∈ held, s.state i = .wait ∧ (s.table i).pid ∈ pids ∧
    ∃ j ∈ held, (s.table j).pid = (s.table i).waitpid

end Schedule

theorem killTarget_pid {kernel : Kernel} {pid signum : Word} {target : Slot}
    (reached : killTarget kernel pid signum = some target) : (kernel.proctab target).pid = pid := by
  unfold killTarget at reached
  split at reached
  · cases reached
  · have found := (Option.filter_eq_some_iff.mp reached).1
    simpa [findPCB] using List.find?_some found

def pidsOf (kernel : Kernel) (held : Finset Slot) : Finset Word :=
  held.image fun i => (kernel.proctab i).pid

theorem held_preserved (env : Env) (held : Finset Slot) (pids : Finset Word) :
    Preserved env (SparesHeld env pids) fun s _ => s.Held held pids where
  orderly := fun spares => spares.1
  silent := by
    intro s p i value isHeld j member
    obtain ⟨waits, number, k, isIn, waited⟩ := isHeld j member
    have same : ∀ j, ((s.setRet i value).table j).pid = (s.table j).pid ∧
        ((s.setRet i value).table j).waitpid = (s.table j).waitpid := by
      intro j
      rw [Schedule.setRet_table]
      split <;> exact ⟨rfl, rfl⟩
    refine ⟨by rwa [Schedule.setRet_state], by rwa [(same j).1], k, isIn, ?_⟩
    rw [(same k).1, (same j).2, waited]
  after := by
    intro kernel s p request action s' p' agrees live spares performs isHeld done
    have allows := performs.allows agrees spares.1
    have kept : ∀ i ∈ held, s'.table i = s.table i := by
      intro i member
      obtain ⟨waits, number, j, isIn, waited⟩ := isHeld i member
      apply Schedule.held_after live allows done waits
      rintro target fatal rfl
      -- the signal is sent to a number that none of them has
      cases performs with
      | kill reached =>
          rename_i pid signum
          have named : (s.table target).pid = pid := by
            rw [← agrees.pid]
            exact killTarget_pid reached
          have outside : pid ∉ pids := fun isPid => spares.2 pid isPid signum rfl
          constructor
          · rintro rfl
            rw [named] at number
            exact outside number
          · intro same
            apply outside
            rw [← named, same, ← waited]
            exact (isHeld j isIn).2.1
    intro i member
    obtain ⟨waits, number, j, isIn, waited⟩ := isHeld i member
    rw [Schedule.state, kept i member]
    refine ⟨waits, number, j, isIn, ?_⟩
    rw [kept j isIn, waited]

theorem Closed.held {kernel : Kernel} {s : Schedule} {held : Finset Slot}
    (closed : Closed kernel held) (rep : Represents kernel s) :
    s.Held held (pidsOf kernel held) := by
  intro i member
  obtain ⟨j, isIn, waits, _, number⟩ := closed i member
  refine ⟨by rwa [← rep.state], ?_, j, isIn, by rw [← rep.pid, ← rep.waitpid, number]⟩
  rw [← rep.pid]
  exact Finset.mem_image_of_mem _ member

theorem Schedule.Held.closed {kernel : Kernel} {s : Schedule} {held : Finset Slot}
    {pids : Finset Word} (isHeld : s.Held held pids) (rep : Represents kernel s) :
    Closed kernel held := by
  intro i member
  obtain ⟨waits, _, j, isIn, number⟩ := isHeld i member
  refine ⟨j, isIn, by rw [rep.state, waits], ?_, by rw [rep.pid, rep.waitpid, number]⟩
  rw [rep.state, (isHeld j isIn).1]
  decide

variable {env : Env} {d d' : Dispatcher} {before after : List Trap} {held : Finset Slot} {i : Slot}

theorem Closed.stays (closed : Closed d.kernel held) (reaches : Reaches env (Orderly env) before d)
    (along : Along (dispatch env) (Guarded (SparesHeld env (pidsOf d.kernel held))) d after)
    (reached : run (dispatch env) d after = some d') :
    Closed d'.kernel held ∧ d'.current ∉ held := by
  obtain ⟨s, rep, live, _⟩ := (holds_true env).reaches (fun _ _ _ _ _ => trivial) reaches
  obtain ⟨s', rep', live', isHeld⟩ :=
    (held_preserved env held _).run ⟨s, rep, live, closed.held rep⟩ along reached
  refine ⟨isHeld.closed rep', fun member => ?_⟩
  have waits := (isHeld _ member).1
  rw [live'.running] at waits
  cases waits

theorem attended_attentive (reaches : Reaches env (Attended env) before d) :
    Holds (fun s _ => s.Attentive) d := by
  apply (attentive_preserved env).reaches _ reaches
  intro s s' p built popped i waits
  rw [Schedule.state, Schedule.pop_table popped] at waits
  rcases built.state i with state | state
  · rw [Schedule.state, waits] at state
    cases state
  · rw [Schedule.state, waits] at state
    cases state

theorem free_of_last {s : Schedule} (rep : Represents d.kernel s) (attentive : s.Attentive)
    (last : ∀ j, ¬ WaitsOn d.kernel i j) : (d.kernel.proctab i).state ≠ .wait := by
  intro waits
  obtain ⟨j, alive, number⟩ := attentive i ((rep.state i).symm.trans waits)
  refine last j ⟨waits, ?_, ?_⟩
  · rwa [rep.state]
  · rw [rep.pid, rep.waitpid, number]

theorem alive_of_chain {j : Slot} (alive : (d.kernel.proctab i).state ≠ .stopped)
    (chain : ReflTransGen (WaitsOn d.kernel) i j) : (d.kernel.proctab j).state ≠ .stopped := by
  induction chain with
  | refl => exact alive
  | tail _ step => exact step.2.1

/-- A process that waits in a state that attended requests lead to waits, itself or through others,
for a living process that does not wait, or it is one of a set of processes that wait for each
other, with a cycle among them. None of these ever runs again as long as the queues stay in order
and no signal is sent to one of them. -/
theorem wait_deadlock (reaches : Reaches env (Attended env) before d)
    (waits : (d.kernel.proctab i).state = .wait) :
    (∃ j, ReflTransGen (WaitsOn d.kernel) i j ∧ (d.kernel.proctab j).state ≠ .stopped ∧
      (d.kernel.proctab j).state ≠ .wait) ∨
    ∃ held : Finset Slot, i ∈ held ∧ Closed d.kernel held ∧
      (∃ j ∈ held, TransGen (WaitsOn d.kernel) j j) ∧
      ∀ after d', Along (dispatch env) (Guarded (SparesHeld env (pidsOf d.kernel held))) d after →
        run (dispatch env) d after = some d' → Closed d'.kernel held ∧ d'.current ∉ held := by
  classical
  by_cases stuck : Stuck (WaitsOn d.kernel) i
  · right
    have closed : Closed d.kernel (Finset.univ.filter (ReflTransGen (WaitsOn d.kernel) i)) := by
      intro j member
      have chain := (Finset.mem_filter.mp member).2
      obtain ⟨k, step⟩ := stuck j chain
      exact ⟨k, Finset.mem_filter.mpr ⟨Finset.mem_univ k, chain.tail step⟩, step⟩
    obtain ⟨j, chain, cycle⟩ := stuck.cycle
    refine ⟨_, Finset.mem_filter.mpr ⟨Finset.mem_univ i, .refl⟩, closed, ?_, ?_⟩
    · exact ⟨j, Finset.mem_filter.mpr ⟨Finset.mem_univ j, chain⟩, cycle⟩
    · obtain ⟨start, booted, along, reached⟩ := reaches
      have orderly := along_imp (fun _ _ attended => Attended.orderly attended) along
      intro after d' spared reached'
      exact closed.stays ⟨start, booted, orderly, reached⟩ spared reached'
  · left
    obtain ⟨j, chain, last⟩ := not_stuck.mp stuck
    obtain ⟨s, rep, _, attentive⟩ := attended_attentive reaches
    refine ⟨j, chain, alive_of_chain ?_ chain, free_of_last rep attentive last⟩
    rw [waits]
    decide

theorem wait_deadlock_pair : ∃ d d' held, Reaches sampleEnv (Attended sampleEnv)
    (creatorRun ++ [syswait sampleFrame 2, syswait sampleFrame 3]) d ∧ 3 ∈ held ∧
    run (dispatch sampleEnv) d [sysyield sampleFrame, timerTrap] = some d' ∧
    Closed d'.kernel held ∧ d'.current ∉ held := by
  obtain ⟨d, reaches, check⟩ := reaches_of_check sampleEnv (Attended sampleEnv)
    (creatorRun ++ [syswait sampleFrame 2, syswait sampleFrame 3])
    (fun d => (d.kernel.proctab 3).state = .wait ∧ (d.kernel.proctab 2).state = .wait ∧
      (∀ j, (WaitsOn d.kernel 3 j → j = 2) ∧ (WaitsOn d.kernel 2 j → j = 3)) ∧
      Along (dispatch sampleEnv) (fun d trap => Guarded (Orderly sampleEnv) d trap ∧
        (d.request trap = .yield ∨ d.request trap = .timer)) d
        [sysyield sampleFrame, timerTrap] ∧
      ∃ d' ∈ run (dispatch sampleEnv) d [sysyield sampleFrame, timerTrap], True)
    (by decide +kernel)
  obtain ⟨waits, waits', only, along, d', reached, _⟩ := check
  have members : ∀ j, ReflTransGen (WaitsOn d.kernel) 3 j → j = 2 ∨ j = 3 := by
    intro j chain
    induction chain with
    | refl => exact Or.inr rfl
    | tail _ step ih =>
        rcases ih with rfl | rfl
        · exact Or.inr ((only _).2 step)
        · exact Or.inl ((only _).1 step)
  rcases wait_deadlock reaches waits with ⟨j, chain, _, free⟩ | ⟨held, member, closed, _, stays⟩
  · rcases members j chain with rfl | rfl
    · exact absurd waits' free
    · exact absurd waits free
  · have stays' := stays [sysyield sampleFrame, timerTrap] d' ?_ reached
    · exact ⟨d, d', held, reaches, member, reached, stays'⟩
    · apply along_imp _ along
      rintro d trap ⟨orderly, harmless⟩
      refine ⟨orderly, fun pid _ signum sent => ?_⟩
      rcases harmless with same | same
      · rw [sent] at same
        cases same
      · rw [sent] at same
        cases same

end XerosKernel
