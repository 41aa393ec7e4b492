import XerosKernel.IdleProcess

/-!
The dispatcher as a scheduler without pointers. Which process runs depends on the requests only
through the actions they are: what calls return, what the memory holds and what happens to
signals, descriptors and devices plays no part in it.
-/

namespace XerosKernel

open Execution

namespace Entry

def quiet (entry : Entry) : Entry := { entry with ret := 0 }

theorem quiet_parts {entry entry' : Entry} (same : entry.quiet = entry'.quiet) :
    entry.state = entry'.state ∧ entry.pid = entry'.pid ∧ entry.waitpid = entry'.waitpid := by
  have state : entry.quiet.state = entry'.quiet.state := by rw [same]
  have pid : entry.quiet.pid = entry'.quiet.pid := by rw [same]
  have waitpid : entry.quiet.waitpid = entry'.quiet.waitpid := by rw [same]
  exact ⟨state, pid, waitpid⟩

end Entry

namespace Schedule

def quiet (s : Schedule) : Schedule := { s with table := fun i => (s.table i).quiet }

/-- The schedule after an action of the process that runs, and who runs then. -/
def play (state : Schedule × Slot) (action : Action) : Option (Schedule × Slot) :=
  (state.1.after state.2 action).map fun result => (result.1.quiet, result.2)

variable {s s' : Schedule}

theorem quiet_parts (same : s.quiet = s'.quiet) : s.queue = s'.queue ∧
    s.sleepers = s'.sleepers ∧ ∀ i, (s.table i).quiet = (s'.table i).quiet := by
  have queue : s.quiet.queue = s'.quiet.queue := by rw [same]
  have sleepers : s.quiet.sleepers = s'.quiet.sleepers := by rw [same]
  have table : ∀ i, s.quiet.table i = s'.quiet.table i := fun i => by rw [same]
  exact ⟨queue, sleepers, table⟩

theorem quiet_ext (queue : s.queue = s'.queue) (sleepers : s.sleepers = s'.sleepers)
    (table : ∀ i, (s.table i).quiet = (s'.table i).quiet) : s.quiet = s'.quiet := by
  change ({ s with table := fun i => (s.table i).quiet } : Schedule) =
    { s' with table := fun i => (s'.table i).quiet }
  rw [queue, sleepers, funext table]

theorem quiet_state (same : s.quiet = s'.quiet) (i : Slot) : s.state i = s'.state i :=
  (Entry.quiet_parts ((quiet_parts same).2.2 i)).1

theorem quiet_setRet (s : Schedule) (p : Slot) (value : Word) :
    (s.setRet p value).quiet = s.quiet := by
  refine quiet_ext rfl rfl fun i => ?_
  rw [setRet_table]
  split <;> rfl

theorem set_quiet (write : Entry → Entry) (same : s.quiet = s'.quiet) (i : Slot)
    (plain : ∀ entry, (write entry.quiet).quiet = (write entry).quiet) :
    (s.set i write).quiet = (s'.set i write).quiet := by
  obtain ⟨queue, sleepers, table⟩ := quiet_parts same
  refine quiet_ext queue sleepers fun j => ?_
  simp only [set_table]
  split
  · rw [← plain, table, plain]
  · exact table j

theorem setState_quiet (same : s.quiet = s'.quiet) (i : Slot) (state : ProcState) :
    (s.setState i state).quiet = (s'.setState i state).quiet :=
  set_quiet _ same i fun _ => rfl

theorem queue_quiet (same : s.quiet = s'.quiet) (queue : List Slot) :
    ({ s with queue := queue } : Schedule).quiet = { s' with queue := queue }.quiet := by
  obtain ⟨_, sleepers, table⟩ := quiet_parts same
  exact quiet_ext rfl sleepers table

theorem enqueue_quiet (same : s.quiet = s'.quiet) (i : Slot) :
    (s.enqueue i).quiet = (s'.enqueue i).quiet := by
  rw [enqueue, enqueue, (quiet_parts same).1]
  exact queue_quiet (setState_quiet same i .ready) _

theorem pop_quiet (same : s.quiet = s'.quiet) :
    (s.pop.map fun result => (result.1.quiet, result.2)) =
      s'.pop.map fun result => (result.1.quiet, result.2) := by
  unfold pop
  rw [← (quiet_parts same).1]
  cases s.queue with
  | nil => rfl
  | cons first rest =>
      simp only [Option.map_some]
      rw [queue_quiet same]

theorem tick_quiet (same : s.quiet = s'.quiet) : s.tick.quiet = s'.tick.quiet := by
  obtain ⟨queue, sleepers, table⟩ := quiet_parts same
  refine quiet_ext (by simp [queue, sleepers]) (by simp [sleepers]) fun i => ?_
  rw [tick_table, tick_table, sleepers]
  split
  · exact congrArg (fun entry => { entry with state := .ready }) (table i)
  · exact table i

theorem interrupt_quiet (same : s.quiet = s'.quiet) (target : Slot) :
    (s.interrupt target).quiet = (s'.interrupt target).quiet := by
  unfold interrupt
  rw [quiet_state same target]
  split
  · apply enqueue_quiet
    rw [quiet_setRet, quiet_setRet, same]
  · exact same

theorem remove_quiet (same : s.quiet = s'.quiet) (target : Slot) :
    (s.remove target).quiet = (s'.remove target).quiet := by
  unfold remove
  rw [quiet_state same target, (quiet_parts same).1]
  split
  · exact queue_quiet same _
  · exact same

theorem release_quiet (same : s.quiet = s'.quiet) (target : Slot) :
    (s.release target).quiet = (s'.release target).quiet := by
  obtain ⟨queue, sleepers, table⟩ := quiet_parts same
  have waitpid : ∀ i, (s.table i).waitpid = (s'.table i).waitpid := fun i =>
    (Entry.quiet_parts (table i)).2.2
  have waiting : s.waiting (s.table target).pid = s'.waiting (s'.table target).pid := by
    simp only [Schedule.waiting, quiet_state same, waitpid, (Entry.quiet_parts (table target)).2.1]
  unfold release
  rw [waiting]
  refine quiet_ext (by simp [endWait, queue]) sleepers fun i => ?_
  simp only [endWait]
  split
  · exact congrArg (fun entry => { entry with state := .ready, waitpid := 0 }) (table i)
  · exact table i

/-- What calls return decides nothing about the schedule. -/
theorem play_quiet (same : s.quiet = s'.quiet) (p : Slot) (action : Action) :
    play (s, p) action = play (s', p) action := by
  change (s.after p action).map (fun result => (result.1.quiet, result.2)) =
    (s'.after p action).map fun result => (result.1.quiet, result.2)
  unfold Schedule.after
  cases action with
  | stay => simp [same]
  | create i pid =>
      have named := set_quiet (fun entry => { entry with pid := pid }) same i
        fun _ => rfl
      simp [enqueue_quiet named i]
  | yield => exact pop_quiet (enqueue_quiet same p)
  | stop => exact pop_quiet (setState_quiet same p .stopped)
  | wait pid => exact pop_quiet (set_quiet _ same p fun _ => rfl)
  | block => exact pop_quiet (setState_quiet same p .blocked)
  | drop => exact pop_quiet same
  | sleep ticks =>
      have asleep := quiet_parts (setState_quiet same p .sleep)
      apply pop_quiet
      exact quiet_ext asleep.1 (by rw [(quiet_parts same).2.1]) asleep.2.2
  | timer => exact pop_quiet (enqueue_quiet (tick_quiet same) p)
  | kill target fatal =>
      have woken := interrupt_quiet same target
      have killed := release_quiet (remove_quiet woken target) target
      cases fatal with
      | false => simp [woken]
      | true => simp [killed]

theorem Step.play {p p' : Slot} {action : Action} (step : s.Step p action s' p') :
    play (s.quiet, p) action = some (s'.quiet, p') := by
  obtain ⟨value, value', middle, done, rfl⟩ := step
  have same : s.quiet.quiet = (s.setRet p value).quiet := by
    rw [quiet_setRet]
    rfl
  have played : play (s.setRet p value, p) action = some (middle.quiet, p') :=
    Option.map_eq_some_iff.mpr ⟨_, done, rfl⟩
  rw [play_quiet same, played, quiet_setRet]

end Schedule

def TrapPerforms (env : Env) (d : Dispatcher) (trap : Trap) (action : Action) : Prop :=
  Performs env (d.entered trap) d.current (d.request trap) action

/-- The schedule that represents the state, without what calls return, and the process that
runs. -/
def PlaysSchedule (d : Dispatcher) (state : Schedule × Slot) : Prop :=
  ∃ s, Represents d.kernel s ∧ s.Live d.current ∧ state = (s.quiet, d.current)

theorem dispatch_plays {env : Env} {d d' : Dispatcher} {trap : Trap} {state : Schedule × Slot}
    (plays : PlaysSchedule d state) (orderly : Guarded (Orderly env) d trap)
    (stepped : dispatch env d trap = some d') :
    ∃ action state', TrapPerforms env d trap action ∧
      Schedule.play state action = some state' ∧ PlaysSchedule d' state' := by
  obtain ⟨s, rep, live, rfl⟩ := plays
  obtain ⟨action, s', performs, step, rep', live'⟩ := guarded_round rep live orderly stepped
  exact ⟨action, (s'.quiet, d'.current), performs, step.play, s', rep', live', rfl⟩

/-- Every orderly run of the dispatcher is a run of the scheduler without pointers, with one action
for each trap, the only one that it stands for. Behind each beginning of the run, the actions so far
lead to the process that then runs, and to a schedule that represents the queues and the states of
the kernel. -/
theorem dispatcher_refines_schedule {env : Env} {start d : Dispatcher} {traps : List Trap}
    (booted : boot env = some start)
    (along : Along (dispatch env) (Guarded (Orderly env)) start traps)
    (reached : run (dispatch env) start traps = some d) :
    ∃ (built s₀ : Schedule) (actions : List Action), built.Built ∧
      built.pop = some (s₀, start.current) ∧
      Labelled (dispatch env) (TrapPerforms env) start traps actions ∧
      (∀ others, Labelled (dispatch env) (TrapPerforms env) start traps others →
        others = actions) ∧
      ∀ n, ∃ (d' : Dispatcher) (s : Schedule), run (dispatch env) start (traps.take n) = some d' ∧
        run Schedule.play (s₀.quiet, start.current) (actions.take n) =
          some (s.quiet, d'.current) ∧
        Represents d'.kernel s ∧ s.Live d'.current := by
  obtain ⟨built, s₀, isBuilt, popped, rep⟩ := boot_built booted
  have initial : PlaysSchedule start (s₀.quiet, start.current) :=
    ⟨s₀, rep, isBuilt.sound.pop popped, rfl⟩
  obtain ⟨actions, _, labelled, _, _, beginnings⟩ :=
    run_labelled (fun _ _ _ _ plays orderly stepped => dispatch_plays plays orderly stepped)
      initial along reached
  have determined : ∀ (d : Dispatcher) trap action action', TrapPerforms env d trap action →
      TrapPerforms env d trap action' → action = action' :=
    fun _ _ _ _ performs performs' => Performs.unique performs performs'
  have only : ∀ others, Labelled (dispatch env) (TrapPerforms env) start traps others →
      others = actions := fun _ labelled' => labelled'.unique determined labelled
  refine ⟨built, s₀, actions, isBuilt, popped, labelled, only, fun n => ?_⟩
  obtain ⟨d', _, begun, played, s, rep', live, rfl⟩ := beginnings n
  exact ⟨d', s, begun, played, rep', live⟩

theorem dispatcher_refines_schedule_sleeper : ∃ start d, boot sampleEnv = some start ∧
    run (dispatch sampleEnv) start sleeperRun = some d ∧
    ∃ (s₀ : Schedule) (actions : List Action),
      Labelled (dispatch sampleEnv) (TrapPerforms sampleEnv) start sleeperRun actions ∧
      ∀ n, ∃ (d' : Dispatcher) (s : Schedule),
        run (dispatch sampleEnv) start (sleeperRun.take n) = some d' ∧
        run Schedule.play (s₀.quiet, start.current) (actions.take n) =
          some (s.quiet, d'.current) ∧
        Represents d'.kernel s := by
  obtain ⟨d, ⟨start, booted, along, reached⟩, _⟩ := reaches_of_check sampleEnv
    (Orderly sampleEnv) sleeperRun (fun _ => True) (by decide +kernel)
  obtain ⟨_, s₀, actions, _, _, labelled, _, beginnings⟩ :=
    dispatcher_refines_schedule booted along reached
  refine ⟨start, d, booted, reached, s₀, actions, labelled, fun n => ?_⟩
  obtain ⟨d', s, begun, played, rep, _⟩ := beginnings n
  exact ⟨d', s, begun, played, rep⟩

end XerosKernel
