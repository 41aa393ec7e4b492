import XerosKernel.Runs

/-!
Waiting for a process to end. As long as no process with a waiter stops, no wait is for a
process that has stopped, and signal 31 finds no waiter of its target, every waiter waits
for a process that lives, and a wait ends by a signal and returns -666.
-/

namespace XerosKernel

open Execution

/-- `p` stops with nobody waiting for it, waits for a process that lives, and sends no signal
to a sleeping process and no signal 31 to a process that others wait for; no read meets the
end of the keyboard input. -/
def Attended (env : Env) (kernel : Kernel) (p : Slot) : Request → Prop
  | .stop => ∀ i, (kernel.proctab i).state = .wait →
      (kernel.proctab i).waitpid ≠ (kernel.proctab p).pid
  | .wait pid => pid ≠ 0 →
      ∀ target ∈ findPCB kernel pid, (kernel.proctab target).state ≠ .stopped
  | .kill pid signum => ∀ target ∈ killTarget kernel pid signum,
      (kernel.proctab target).state ≠ .sleep ∧
      (signum = 31 → ∀ i ≠ target, (kernel.proctab i).state = .wait →
        (kernel.proctab i).waitpid ≠ (kernel.proctab target).pid)
  | .read fd buff _ => ¬ ReadsEof env kernel p fd buff
  | _ => True

instance (env : Env) (kernel : Kernel) (p : Slot) :
    (request : Request) → Decidable (Attended env kernel p request)
  | .stop => inferInstanceAs (Decidable (∀ _, _))
  | .wait _ => inferInstanceAs (Decidable (_ → ∀ _ ∈ _, _))
  | .kill _ _ => inferInstanceAs (Decidable (∀ _ ∈ _, _))
  | .read _ _ _ => inferInstanceAs (Decidable (¬ _))
  | .create _ _ | .yield | .cputimes _ | .puts _ | .getpid | .sleep _ | .timer
  | .sighandler _ _ | .sigreturn _ _ _ | .openDevice _ | .close _ | .write _ _ _
  | .ioctl _ _ _ | .keyboard | .bad _ => isTrue trivial

theorem Attended.orderly {env : Env} {kernel : Kernel} {p : Slot} {request : Request}
    (attended : Attended env kernel p request) : Orderly env kernel p request := by
  cases request with
  | kill pid signum => exact fun target reached => (attended target reached).1
  | read fd buff bufflen => exact attended
  | _ => trivial

namespace Schedule

def Lives (s : Schedule) (pid : Word) : Prop :=
  ∃ j, s.state j ≠ .stopped ∧ (s.table j).pid = pid

def Attentive (s : Schedule) : Prop :=
  ∀ i, s.state i = .wait → s.Lives (s.table i).waitpid

def Attends (s : Schedule) (p : Slot) : Action → Prop
  | .stop => ∀ i, s.state i = .wait → (s.table i).waitpid ≠ (s.table p).pid
  | .wait pid => s.Lives pid
  | .kill target fatal => fatal = true →
      ∀ i ≠ target, s.state i = .wait → (s.table i).waitpid ≠ (s.table target).pid
  | _ => True

variable {s s' : Schedule} {p p' : Slot} {action : Action}

theorem kill_table {target : Slot} {fatal : Bool} (attends : s.Attends p (.kill target fatal))
    (done : s.after p (.kill target fatal) = some (s', p')) (i : Slot) :
    s'.table i = (s.interrupt target).table i := by
  rw [after_table done]
  cases fatal with
  | false => rfl
  | true =>
      have table := remove_table (s.interrupt target) target
      have alone : i ∉ ((s.interrupt target).remove target).waiting
          (((s.interrupt target).remove target).table target).pid := by
        intro woken
        obtain ⟨waits, same⟩ := (mem_waiting _ i).mp woken
        rw [state, table, interrupt_table] at waits
        rw [table, interrupt_table, interrupt_table] at same
        by_cases isTarget : i = target
        · subst isTarget
          by_cases waiting : s.state i = .wait
          · simp [waiting] at waits
          · simp only [waiting, and_false, if_false] at waits
            exact waiting waits
        · simp only [isTarget, false_and, if_false] at waits same
          refine attends rfl i isTarget waits (same.trans ?_)
          split <;> rfl
      have same : (((s.interrupt target).remove target).release target).table i =
          ((s.interrupt target).remove target).table i := if_neg alone
      exact same.trans (congrFun table i)

theorem wait_ends (live : s.Live p) (allows : s.Allows action) (attends : s.Attends p action)
    (done : s.after p action = some (s', p')) {i : Slot} (waits : s.state i = .wait) :
    s'.table i = s.table i ∨ (s'.state i = .ready ∧ (s'.table i).ret = -666) ∧ i ≠ p := by
  have notP : i ≠ p := by
    rintro rfl
    rw [live.running] at waits
    cases waits
  cases action with
  | create j pid =>
      have other : i ≠ j := by
        rintro rfl
        rw [Allows, waits] at allows
        cases allows
      exact Or.inl (by rw [after_table done, tableAfter, if_neg other])
  | timer =>
      have notWoken : i ∉ (tickEntries s.sleepers).1 := by
        intro woken
        have isKey : i ∈ s.sleepers.map Prod.fst := by
          rw [tickEntries_append]
          exact List.mem_append_left _ woken
        rw [live.sleeping, waits] at isKey
        cases isKey
      exact Or.inl (by rw [after_table done, tableAfter]; simp [notP, tick, notWoken])
  | kill target fatal =>
      have table := kill_table attends done i
      rw [interrupt_table] at table
      by_cases isTarget : i = target
      · subst isTarget
        rw [if_pos ⟨rfl, waits⟩] at table
        exact Or.inr ⟨⟨by rw [state, table], by rw [table]⟩, notP⟩
      · rw [if_neg fun both => isTarget both.1] at table
        exact Or.inl table
  | stay | drop => exact Or.inl (after_table done i)
  | _ => exact Or.inl (by rw [after_table done, tableAfter, if_neg notP])

theorem lives_after (live : s.Live p) (allows : s.Allows action) (attends : s.Attends p action)
    (done : s.after p action = some (s', p')) {pid : Word} (lives : s.Lives pid)
    (kept : action = .stop → pid ≠ (s.table p).pid) : s'.Lives pid := by
  obtain ⟨j, alive, number⟩ := lives
  refine ⟨j, ?_⟩
  rw [state, after_table done]
  cases action with
  | stay | drop => exact ⟨alive, number⟩
  | create i new =>
      have other : j ≠ i := by
        rintro rfl
        exact alive allows
      rw [tableAfter, if_neg other]
      exact ⟨alive, number⟩
  | stop =>
      have other : j ≠ p := by
        rintro rfl
        exact kept rfl number.symm
      rw [tableAfter, if_neg other]
      exact ⟨alive, number⟩
  | timer =>
      rw [tableAfter, enqueue_table, tick_table]
      split
      · refine ⟨by simp, ?_⟩
        split <;> exact number
      · split
        · exact ⟨by simp, number⟩
        · exact ⟨alive, number⟩
  | kill target fatal =>
      rw [← after_table done, kill_table attends done, interrupt_table]
      split
      · exact ⟨by simp, number⟩
      · exact ⟨alive, number⟩
  | _ =>
      rw [tableAfter]
      split
      · exact ⟨by simp, number⟩
      · exact ⟨alive, number⟩

theorem waits_after (attends : s.Attends p action)
    (done : s.after p action = some (s', p')) {i : Slot} (waits : s'.state i = .wait) :
    (s.state i = .wait ∧ (s'.table i).waitpid = (s.table i).waitpid) ∨
      action = .wait (s'.table i).waitpid := by
  rw [state] at waits
  have table := after_table done i
  cases action with
  | stay | drop =>
      rw [tableAfter] at table
      rw [table] at waits ⊢
      exact Or.inl ⟨waits, rfl⟩
  | wait pid =>
      rw [tableAfter] at table
      split at table
      · rw [table]
        exact Or.inr rfl
      · rw [table] at waits ⊢
        exact Or.inl ⟨waits, rfl⟩
  | timer =>
      rw [tableAfter, enqueue_table, tick_table] at table
      split at table
      · rw [table] at waits
        cases waits
      · split at table
        · rw [table] at waits
          cases waits
        · rw [table] at waits ⊢
          exact Or.inl ⟨waits, rfl⟩
  | kill target fatal =>
      have killed := kill_table attends done i
      rw [interrupt_table] at killed
      split at killed
      · rw [killed] at waits
        cases waits
      · rw [killed] at waits ⊢
        exact Or.inl ⟨waits, rfl⟩
  | _ =>
      rw [tableAfter] at table
      split at table
      · rw [table] at waits
        cases waits
      · rw [table] at waits ⊢
        exact Or.inl ⟨waits, rfl⟩

theorem attentive_after (live : s.Live p) (allows : s.Allows action) (attends : s.Attends p action)
    (done : s.after p action = some (s', p')) (attentive : s.Attentive) : s'.Attentive := by
  intro i waits
  rcases waits_after attends done waits with ⟨waited, same⟩ | rfl
  · rw [same]
    refine lives_after live allows attends done (attentive i waited) ?_
    rintro rfl
    exact attends i waited
  · exact lives_after live allows attends done attends (by simp)

theorem Attentive.setRet (attentive : s.Attentive) (i : Slot) (value : Word) :
    (s.setRet i value).Attentive := by
  have waitpid : ∀ j, ((s.setRet i value).table j).waitpid = (s.table j).waitpid := by
    intro j
    rw [setRet_table]
    split <;> rfl
  have pid : ∀ j, ((s.setRet i value).table j).pid = (s.table j).pid := by
    intro j
    rw [setRet_table]
    split <;> rfl
  intro j waits
  rw [setRet_state] at waits
  obtain ⟨k, alive, number⟩ := attentive j waits
  exact ⟨k, by rwa [setRet_state], by rw [pid, waitpid, number]⟩

end Schedule

theorem Attended.attends {env : Env} {kernel : Kernel} {s : Schedule} {p : Slot}
    {request : Request} {action : Action} (attended : Attended env kernel p request)
    (agrees : Agrees kernel s) (performs : Performs env kernel p request action) :
    s.Attends p action := by
  cases performs with
  | stop =>
      intro i waits
      rw [← agrees.waitpid, ← agrees.pid]
      exact attended i ((agrees.state i).trans waits)
  | wait found nonzero =>
      rename_i pid target
      refine ⟨target, ?_, ?_⟩
      · rw [← agrees.state]
        exact attended nonzero target found
      · rw [← agrees.pid]
        simpa using List.find?_some found
  | kill reached =>
      intro fatal i other waits
      rw [← agrees.waitpid, ← agrees.pid]
      exact (attended _ reached).2 (by simpa using fatal) i other ((agrees.state i).trans waits)
  | _ => trivial

theorem attentive_preserved (env : Env) :
    Preserved env (Attended env) fun s _ => s.Attentive where
  orderly := fun attended => attended.orderly
  silent := fun i value attentive => attentive.setRet i value
  after := by
    intro kernel s p request action s' p' agrees live attended performs attentive done
    have allows := performs.allows agrees attended.orderly
    exact Schedule.attentive_after live allows (attended.attends agrees performs) done attentive

def Alive (d : Dispatcher) (pid : Word) : Prop :=
  ∃ j, (d.kernel.proctab j).state ≠ .stopped ∧ (d.kernel.proctab j).pid = pid

/-- A wait ends with -666, or with 0 in the step in which the process waited for stops. -/
def EndsWait (d d' : Dispatcher) (i : Slot) : Prop :=
  (d'.kernel.proctab i).ret = -666 ∨
    (d'.kernel.proctab i).ret = 0 ∧ ∃ j, (d.kernel.proctab j).state ≠ .stopped ∧
      (d.kernel.proctab j).pid = (d.kernel.proctab i).waitpid ∧
      (d'.kernel.proctab j).state = .stopped

/-- In a run of attended requests every waiter waits for a process that lives, and the next
attended request ends no wait in another way than it should. -/
theorem wait_termination {env : Env} {traps : List Trap} {d : Dispatcher}
    (reaches : Reaches env (Attended env) traps d) :
    (∀ i, (d.kernel.proctab i).state = .wait → Alive d (d.kernel.proctab i).waitpid) ∧
    ∀ trap d', Guarded (Attended env) d trap → dispatch env d trap = some d' →
      ∀ i, (d.kernel.proctab i).state = .wait → (d'.kernel.proctab i).state ≠ .wait →
        EndsWait d d' i := by
  have initial : ∀ (s s' : Schedule) p, s.Built → s.pop = some (s', p) → s'.Attentive := by
    intro s s' p built popped i waits
    rw [Schedule.state, Schedule.pop_table popped] at waits
    rcases built.state i with state | state <;> rw [Schedule.state, waits] at state <;> cases state
  obtain ⟨s, rep, live, attentive⟩ := (attentive_preserved env).reaches initial reaches
  constructor
  · intro i waits
    obtain ⟨j, alive, number⟩ := attentive i ((rep.state i).symm.trans waits)
    exact ⟨j, by rwa [rep.state], by rw [rep.pid, rep.waitpid, number]⟩
  · intro trap d' attended stepped i waits ended
    obtain ⟨action, s', performs, step, rep', live'⟩ :=
      guarded_round rep live attended.orderly stepped
    obtain ⟨value, value', middle, done, rfl⟩ := step
    have agrees := (rep.agrees_entered trap).setRet d.current value
    have allows := performs.allows agrees attended.orderly
    have attends := attended.attends agrees performs
    have waits' : (s.setRet d.current value).state i = .wait := by
      rw [Schedule.setRet_state]
      exact (rep.state i).symm.trans waits
    rw [rep'.state, Schedule.setRet_state] at ended
    rcases Schedule.wait_ends (live.setRet _ _) allows attends done waits' with
      same | ⟨⟨_, ret⟩, other⟩
    · rw [Schedule.state, same] at ended
      exact absurd waits' ended
    · refine Or.inl ?_
      have entry : (d'.kernel.proctab i).ret = _ := congrArg Entry.ret (rep'.table i)
      rw [entry, Schedule.setRet_table, if_neg other, ret]

theorem wait_termination_signal : ∃ d d', Reaches sampleEnv (Attended sampleEnv)
    (creatorRun ++ [syswait sampleFrame 2]) d ∧
    dispatch sampleEnv d (syskill sampleFrame 3 7) = some d' ∧
    Alive d (d.kernel.proctab 3).waitpid ∧ EndsWait d d' 3 := by
  obtain ⟨d, reaches, check⟩ := reaches_of_check sampleEnv (Attended sampleEnv)
    (creatorRun ++ [syswait sampleFrame 2])
    (fun d => (d.kernel.proctab 3).state = .wait ∧
      Guarded (Attended sampleEnv) d (syskill sampleFrame 3 7) ∧
      ∃ d' ∈ dispatch sampleEnv d (syskill sampleFrame 3 7), (d'.kernel.proctab 3).state ≠ .wait)
    (by decide +kernel)
  obtain ⟨waits, attended, d', stepped, ended⟩ := check
  obtain ⟨alive, ends⟩ := wait_termination reaches
  exact ⟨d, d', reaches, stepped, alive 3 waits, ends _ d' attended stepped 3 waits ended⟩

/-- A process that stops leaves its waiter behind. -/
theorem wait_termination_broken : ∃ d, Reaches sampleEnv anyRequest
    (creatorRun ++ [syswait sampleFrame 2, sysstop sampleFrame]) d ∧
    (d.kernel.proctab 3).state = .wait ∧ ¬ Alive d (d.kernel.proctab 3).waitpid := by
  obtain ⟨d, reaches, check⟩ := reaches_of_check sampleEnv anyRequest
    (creatorRun ++ [syswait sampleFrame 2, sysstop sampleFrame])
    (fun d => (d.kernel.proctab 3).state = .wait ∧ ∀ j, (d.kernel.proctab j).state ≠ .stopped →
      (d.kernel.proctab j).pid ≠ (d.kernel.proctab 3).waitpid) (by decide +kernel)
  refine ⟨d, reaches, check.1, ?_⟩
  rintro ⟨j, alive, number⟩
  exact check.2 j alive number

end XerosKernel
