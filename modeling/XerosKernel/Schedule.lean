import XerosKernel.SleepQueue

/-!
The scheduler without pointers: a list of ready processes, a list of sleeping processes
with their differences, and a table of what decides who runs. An `Action` is what a
request means to the scheduler; the kernel is shown to carry these actions out.
-/

namespace XerosKernel

structure Entry where
  state : ProcState
  pid : Word
  waitpid : Word
  ret : Word
  deriving DecidableEq, Repr

def Pcb.entry (pcb : Pcb) : Entry :=
  { state := pcb.state, pid := pcb.pid, waitpid := pcb.waitpid, ret := pcb.ret }

structure Schedule where
  queue : List Slot
  sleepers : List (Slot × Nat)
  table : Slot → Entry

inductive Action
  | stay
  | create (i : Slot) (pid : Word)
  | yield
  | stop
  | wait (pid : Word)
  | block
  | drop
  | sleep (ticks : Nat)
  | timer
  | kill (target : Slot) (fatal : Bool)
  deriving DecidableEq, Repr

namespace Schedule

def state (s : Schedule) (i : Slot) : ProcState := (s.table i).state

def set (s : Schedule) (i : Slot) (write : Entry → Entry) : Schedule :=
  { s with table := fun j => if j = i then write (s.table j) else s.table j }

def setRet (s : Schedule) (i : Slot) (value : Word) : Schedule :=
  s.set i fun entry => { entry with ret := value }

def setState (s : Schedule) (i : Slot) (state : ProcState) : Schedule :=
  s.set i fun entry => { entry with state := state }

def enqueue (s : Schedule) (i : Slot) : Schedule :=
  { s.setState i .ready with queue := s.queue ++ [i] }

def pop (s : Schedule) : Option (Schedule × Slot) :=
  match s.queue with
  | [] => none
  | first :: rest => some ({ s with queue := rest }, first)

def tick (s : Schedule) : Schedule :=
  let (woken, left) := tickEntries s.sleepers
  { queue := s.queue ++ woken
    sleepers := left
    table := fun i =>
      if i ∈ woken then { s.table i with state := .ready, ret := 0 } else s.table i }

/-- A signal takes its target out of a wait. -/
def interrupt (s : Schedule) (target : Slot) : Schedule :=
  if s.state target = .wait then (s.setRet target (-666)).enqueue target else s

def remove (s : Schedule) (target : Slot) : Schedule :=
  if s.state target = .ready then { s with queue := s.queue.erase target } else s

def waiting (s : Schedule) (pid : Word) : List Slot :=
  (List.finRange MAX_PROC).filter fun i => s.state i = .wait ∧ (s.table i).waitpid = pid

def endWait (s : Schedule) (woken : List Slot) : Schedule :=
  { s with
    queue := s.queue ++ woken
    table := fun i =>
      if i ∈ woken then { s.table i with state := .ready, waitpid := 0 } else s.table i }

/-- Signal 31 ends every wait for its target. -/
def release (s : Schedule) (target : Slot) : Schedule :=
  s.endWait (s.waiting (s.table target).pid)

/-- What an action of the running process `p` leaves behind, and who runs next. -/
def after (s : Schedule) (p : Slot) : Action → Option (Schedule × Slot)
  | .stay => some (s, p)
  | .create i pid => some ((s.set i fun entry => { entry with pid := pid }).enqueue i, p)
  | .yield => (s.enqueue p).pop
  | .stop => (s.setState p .stopped).pop
  | .wait pid => (s.set p fun entry =>
      { entry with state := .wait, waitpid := pid, ret := 0 }).pop
  | .block => (s.setState p .blocked).pop
  | .drop => s.pop
  | .sleep ticks =>
      ({ s.setState p .sleep with sleepers := DeltaList.insert ticks p s.sleepers }).pop
  | .timer => (s.tick.enqueue p).pop
  | .kill target fatal =>
      let woken := s.interrupt target
      some (if fatal then (woken.remove target).release target else woken, p)

def Step (s : Schedule) (p : Slot) (action : Action) (s' : Schedule) (p' : Slot) : Prop :=
  ∃ value value' middle, (s.setRet p value).after p action = some (middle, p') ∧
    s' = middle.setRet p value'

/-- New processes get free slots, and no signal arrives for a sleeping process. -/
def Allows (s : Schedule) : Action → Prop
  | .create i _ => s.state i = .stopped
  | .kill target _ => s.state target ≠ .sleep
  | _ => True

/-- The queues hold processes in the matching state. -/
structure Sound (s : Schedule) : Prop where
  queued : ∀ i ∈ s.queue, s.state i = .ready
  nodup : s.queue.Nodup
  sleeping : ∀ i, i ∈ s.sleepers.map Prod.fst ↔ s.state i = .sleep
  distinct : (s.sleepers.map Prod.fst).Nodup

/-- The queues are sound, and `p` runs: it is ready and on no queue. -/
structure Live (s : Schedule) (p : Slot) : Prop extends Sound s where
  running : s.state p = .ready
  absent : p ∉ s.queue

/-! What the operations do to the states. -/

section State

variable (s : Schedule) (i j : Slot)

@[simp] theorem set_queue (write : Entry → Entry) : (s.set i write).queue = s.queue := rfl

@[simp] theorem set_sleepers (write : Entry → Entry) :
    (s.set i write).sleepers = s.sleepers := rfl

@[simp] theorem set_table (write : Entry → Entry) : (s.set i write).table j =
    if j = i then write (s.table j) else s.table j := rfl

@[simp] theorem setRet_queue (value : Word) : (s.setRet i value).queue = s.queue := rfl

@[simp] theorem setRet_sleepers (value : Word) : (s.setRet i value).sleepers = s.sleepers := rfl

@[simp] theorem setRet_table (value : Word) : (s.setRet i value).table j =
    if j = i then { s.table j with ret := value } else s.table j := rfl

@[simp] theorem setRet_state (value : Word) : (s.setRet i value).state j = s.state j := by
  by_cases same : j = i <;> simp [state, same]

theorem setRet_self : s.setRet i (s.table i).ret = s := by
  simp only [setRet, set]
  congr 1
  funext j
  by_cases same : j = i <;> simp [same]

theorem setRet_setRet (first second : Word) :
    (s.setRet i first).setRet i second = s.setRet i second := by
  simp only [setRet, set]
  congr 1
  funext j
  by_cases same : j = i <;> simp [same]

@[simp] theorem setState_queue (new : ProcState) : (s.setState i new).queue = s.queue := rfl

@[simp] theorem setState_sleepers (new : ProcState) :
    (s.setState i new).sleepers = s.sleepers := rfl

@[simp] theorem setState_state (new : ProcState) :
    (s.setState i new).state j = if j = i then new else s.state j := by
  by_cases same : j = i <;> simp [state, setState, same]

@[simp] theorem enqueue_queue : (s.enqueue i).queue = s.queue ++ [i] := rfl

@[simp] theorem enqueue_sleepers : (s.enqueue i).sleepers = s.sleepers := rfl

@[simp] theorem enqueue_table : (s.enqueue i).table j =
    if j = i then { s.table j with state := .ready } else s.table j := rfl

@[simp] theorem enqueue_state :
    (s.enqueue i).state j = if j = i then .ready else s.state j := setState_state s i j .ready

@[simp] theorem tick_queue : s.tick.queue = s.queue ++ (tickEntries s.sleepers).1 := rfl

@[simp] theorem tick_sleepers : s.tick.sleepers = (tickEntries s.sleepers).2 := rfl

theorem tick_table : s.tick.table i = if i ∈ (tickEntries s.sleepers).1 then
    { s.table i with state := .ready, ret := 0 } else s.table i := rfl

theorem tick_state :
    s.tick.state j = if j ∈ (tickEntries s.sleepers).1 then .ready else s.state j := by
  by_cases member : j ∈ (tickEntries s.sleepers).1 <;> simp [tick, state, member]

theorem interrupt_table : (s.interrupt i).table j =
    if j = i ∧ s.state i = .wait then { s.table j with state := .ready, ret := -666 }
    else s.table j := by
  unfold interrupt
  by_cases waits : s.state i = .wait <;> by_cases same : j = i <;> simp [waits, same]

theorem remove_table : (s.remove i).table = s.table := by
  unfold remove
  split <;> rfl

theorem mem_waiting {pid : Word} :
    i ∈ s.waiting pid ↔ s.state i = .wait ∧ (s.table i).waitpid = pid := by
  simp [waiting]

theorem endWait_state (woken : List Slot) :
    (s.endWait woken).state j = if j ∈ woken then .ready else s.state j := by
  by_cases member : j ∈ woken <;> simp [endWait, state, member]

theorem endWait_nil : s.endWait [] = s := by
  simp [endWait]

theorem endWait_cons (woken : List Slot) :
    (s.endWait [i]).endWait woken = s.endWait (i :: woken) := by
  simp only [endWait, List.append_assoc, List.singleton_append, Schedule.mk.injEq, true_and]
  funext j
  by_cases isI : j = i <;> by_cases member : j ∈ woken <;> simp [isI, member]

end State

theorem pop_eq_some {s s' : Schedule} {p : Slot} :
    s.pop = some (s', p) ↔ s.queue = p :: s'.queue ∧ s' = { s with queue := s'.queue } := by
  unfold pop
  constructor
  · intro popped
    split at popped
    · cases popped
    · rename_i first rest split'
      simp only [Option.some.injEq, Prod.mk.injEq] at popped
      obtain ⟨rfl, rfl⟩ := popped
      exact ⟨split', rfl⟩
  · rintro ⟨split', rest⟩
    rw [split', rest]

theorem pop_sleepers {s s' : Schedule} {p : Slot} (popped : s.pop = some (s', p)) :
    s'.sleepers = s.sleepers := by
  rw [(pop_eq_some.mp popped).2]

def sleepersAfter (s : Schedule) (p : Slot) : Action → List (Slot × Nat)
  | .sleep ticks => DeltaList.insert ticks p s.sleepers
  | .timer => (tickEntries s.sleepers).2
  | _ => s.sleepers

theorem after_sleepers {s s' : Schedule} {p p' : Slot} {action : Action}
    (done : s.after p action = some (s', p')) : s'.sleepers = s.sleepersAfter p action := by
  cases action with
  | stay =>
      cases done
      rfl
  | create i pid =>
      cases done
      rfl
  | kill target fatal =>
      simp only [Schedule.after, Option.some.injEq, Prod.mk.injEq] at done
      obtain ⟨rfl, _⟩ := done
      have interrupted : (s.interrupt target).sleepers = s.sleepers := by
        unfold interrupt
        split <;> rfl
      have removed : ((s.interrupt target).remove target).sleepers = s.sleepers := by
        unfold remove
        split <;> exact interrupted
      cases fatal with
      | false => exact interrupted
      | true => exact removed
  | _ =>
      have popped := pop_sleepers done
      exact popped

theorem pop_table {s s' : Schedule} {p : Slot} (popped : s.pop = some (s', p)) :
    s'.table = s.table := by
  rw [(pop_eq_some.mp popped).2]

def tableAfter (s : Schedule) (p i : Slot) : Action → Entry
  | .stay | .drop => s.table i
  | .create j pid => if i = j then { s.table i with state := .ready, pid := pid } else s.table i
  | .yield => if i = p then { s.table i with state := .ready } else s.table i
  | .stop => if i = p then { s.table i with state := .stopped } else s.table i
  | .wait pid =>
      if i = p then { s.table i with state := .wait, waitpid := pid, ret := 0 } else s.table i
  | .block => if i = p then { s.table i with state := .blocked } else s.table i
  | .sleep _ => if i = p then { s.table i with state := .sleep } else s.table i
  | .timer => (s.tick.enqueue p).table i
  | .kill target fatal =>
      if fatal then (((s.interrupt target).remove target).release target).table i
      else (s.interrupt target).table i

theorem after_table {s s' : Schedule} {p p' : Slot} {action : Action}
    (done : s.after p action = some (s', p')) (i : Slot) :
    s'.table i = s.tableAfter p i action := by
  cases action with
  | stay =>
      cases done
      rfl
  | create j pid =>
      cases done
      by_cases same : i = j <;> simp [tableAfter, same]
  | kill target fatal =>
      cases done
      cases fatal <;> rfl
  | _ =>
      have popped := pop_table done
      exact congrFun popped i

namespace Step

variable {s s' middle : Schedule} {p p' : Slot} {action : Action}

theorem of_after (done : s.after p action = some (middle, p')) (value : Word) :
    s.Step p action (middle.setRet p value) p' :=
  ⟨(s.table p).ret, value, middle, by rw [setRet_self]; exact done, rfl⟩

theorem of_pop (done : s.after p action = some (s', p')) : s.Step p action s' p' := by
  have step := of_after done (s'.table p).ret
  rwa [setRet_self] at step

theorem of_setRet {value : Word} (step : (s.setRet p value).Step p action s' p') :
    s.Step p action s' p' := by
  obtain ⟨value', value'', middle, done, rest⟩ := step
  rw [setRet_setRet] at done
  exact ⟨value', value'', middle, done, rest⟩

end Step

/-! The queues stay sound. -/

namespace Sound

variable {s s' : Schedule} {p : Slot}

theorem congr (sound : Sound s) (queue : s'.queue = s.queue) (sleepers : s'.sleepers = s.sleepers)
    (state : ∀ i, s'.state i = s.state i) : Sound s' where
  queued := by simpa [queue, state] using sound.queued
  nodup := by simpa [queue] using sound.nodup
  sleeping := by simpa [sleepers, state] using sound.sleeping
  distinct := by simpa [sleepers] using sound.distinct

theorem setRet (sound : Sound s) (value : Word) : Sound (s.setRet p value) :=
  sound.congr rfl rfl fun i => setRet_state s p i value

theorem setState (sound : Sound s) {new : ProcState} (absent : p ∉ s.queue)
    (before : s.state p ≠ .sleep) (after : new ≠ .sleep) : Sound (s.setState p new) where
  queued := by
    intro i member
    have other : i ≠ p := fun equal => absent (equal ▸ member)
    simpa [other] using sound.queued i member
  nodup := sound.nodup
  sleeping := by
    intro i
    rw [setState_sleepers, sound.sleeping, setState_state]
    by_cases isP : i = p
    · subst isP
      simp [before, after]
    · simp [isP]
  distinct := sound.distinct

theorem wait (sound : Sound s) (absent : p ∉ s.queue) (awake : s.state p ≠ .sleep) (pid : Word) :
    Sound (s.set p fun entry => { entry with state := .wait, waitpid := pid, ret := 0 }) := by
  have waits : Sound (s.setState p .wait) := sound.setState absent awake (by simp)
  refine waits.congr rfl rfl ?_
  intro j
  by_cases same : j = p <;> simp [state, Schedule.setState, same]

theorem enqueue (sound : Sound s) (absent : p ∉ s.queue) (awake : s.state p ≠ .sleep) :
    Sound (s.enqueue p) where
  queued := by
    intro i member
    rw [enqueue_queue, List.mem_append, List.mem_singleton] at member
    rw [enqueue_state]
    split
    · rfl
    · rename_i other
      exact sound.queued i (member.resolve_right other)
  nodup := by
    rw [enqueue_queue]
    exact List.nodup_append.mpr ⟨sound.nodup, List.nodup_singleton p, by
      intro i member j isP equal
      rw [equal, List.mem_singleton.mp isP] at member
      exact absent member⟩
  sleeping := (sound.setState absent awake (by simp)).sleeping
  distinct := sound.distinct

theorem endWait (sound : Sound s) {woken : List Slot} (unique : woken.Nodup)
    (waits : ∀ i ∈ woken, s.state i = .wait) : Sound (s.endWait woken) where
  queued := by
    intro i member
    rw [endWait_state]
    split
    · rfl
    · rename_i other
      exact sound.queued i ((List.mem_append.mp member).resolve_right other)
  nodup := by
    refine List.nodup_append.mpr ⟨sound.nodup, unique, ?_⟩
    rintro i queued _ woken rfl
    have waiting := waits i woken
    rw [sound.queued i queued] at waiting
    cases waiting
  sleeping := by
    intro i
    rw [endWait_state]
    change i ∈ s.sleepers.map Prod.fst ↔ _
    rw [sound.sleeping]
    split
    · rename_i isWoken
      simp [waits i isWoken]
    · rfl
  distinct := sound.distinct

theorem pop (sound : Sound s) (popped : s.pop = some (s', p)) : Live s' p := by
  obtain ⟨split, rest⟩ := pop_eq_some.mp popped
  have unique := sound.nodup
  rw [split, List.nodup_cons] at unique
  have states : ∀ i, s'.state i = s.state i := fun i => by rw [rest]; rfl
  have sleepers : s'.sleepers = s.sleepers := by rw [rest]
  refine ⟨⟨?_, unique.2, ?_, ?_⟩, ?_, unique.1⟩
  · intro i member
    rw [states]
    exact sound.queued i (by simp [split, member])
  · intro i
    rw [states, sleepers]
    exact sound.sleeping i
  · rw [sleepers]
    exact sound.distinct
  · rw [states]
    exact sound.queued p (by simp [split])

theorem sleep (sound : Sound s) (absent : p ∉ s.queue) (awake : s.state p ≠ .sleep)
    (ticks : Nat) :
    Sound { s.setState p .sleep with sleepers := DeltaList.insert ticks p s.sleepers } where
  queued := by
    intro i member
    have other : i ≠ p := fun equal => absent (equal ▸ member)
    have same : (s.setState p .sleep).state i = s.state i := by simp [other]
    exact same.trans (sound.queued i member)
  nodup := sound.nodup
  sleeping := by
    intro i
    have changed : (s.setState p .sleep).state i = if i = p then .sleep else s.state i := by simp
    change _ ↔ (s.setState p .sleep).state i = _
    rw [DeltaList.mem_keys_insert, changed, sound.sleeping]
    by_cases isP : i = p <;> simp [isP]
  distinct := DeltaList.nodup_keys_insert sound.distinct
    fun member => awake ((sound.sleeping p).mp member)

theorem tick (sound : Sound s) : Sound s.tick := by
  have keys := tickEntries_append s.sleepers
  have unique := sound.distinct
  rw [keys, List.nodup_append] at unique
  constructor
  · intro i member
    rw [tick_state]
    split
    · rfl
    · rename_i asleep
      exact sound.queued i ((List.mem_append.mp member).resolve_right asleep)
  · refine List.nodup_append.mpr ⟨sound.nodup, unique.1, ?_⟩
    rintro i queued _ woken rfl
    have isKey : i ∈ s.sleepers.map Prod.fst := by
      rw [keys]
      exact List.mem_append_left _ woken
    have asleep := (sound.sleeping i).mp isKey
    rw [sound.queued i queued] at asleep
    cases asleep
  · intro i
    have split := sound.sleeping i
    rw [keys, List.mem_append] at split
    rw [tick_state]
    change i ∈ (tickEntries s.sleepers).2.map Prod.fst ↔ _
    by_cases woken : i ∈ (tickEntries s.sleepers).1
    · have gone : i ∉ (tickEntries s.sleepers).2.map Prod.fst := fun left =>
        unique.2.2 i woken i left rfl
      simp only [gone, woken, if_true, false_iff]
      decide
    · simpa [woken] using split
  · exact unique.2.1

theorem interrupt (sound : Sound s) : Sound (s.interrupt p) := by
  unfold Schedule.interrupt
  split
  · rename_i waits
    refine (sound.setRet (-666)).enqueue ?_ (by simp [waits])
    intro queued
    rw [sound.queued p queued] at waits
    cases waits
  · exact sound

theorem remove (sound : Sound s) : Sound (s.remove p) := by
  unfold Schedule.remove
  split
  · exact ⟨fun i member => sound.queued i (List.mem_of_mem_erase member), sound.nodup.erase p,
      sound.sleeping, sound.distinct⟩
  · exact sound

theorem release (sound : Sound s) : Sound (s.release p) :=
  sound.endWait ((List.nodup_finRange MAX_PROC).filter _) fun i woken =>
    ((mem_waiting s i).mp woken).1

end Sound

namespace Live

variable {s : Schedule} {p : Slot}

theorem setRet (live : Live s p) (i : Slot) (value : Word) : Live (s.setRet i value) p where
  toSound := live.toSound.setRet value
  running := by simpa using live.running
  absent := live.absent

theorem tick (live : Live s p) : Live s.tick p := by
  have notWoken : p ∉ (tickEntries s.sleepers).1 := by
    intro woken
    have isKey : p ∈ s.sleepers.map Prod.fst := by
      rw [tickEntries_append]
      exact List.mem_append_left _ woken
    have asleep := (live.sleeping p).mp isKey
    rw [live.running] at asleep
    cases asleep
  refine ⟨live.toSound.tick, ?_, by simp [live.absent, notWoken]⟩
  rw [tick_state, if_neg notWoken]
  exact live.running

theorem interrupt (live : Live s p) (target : Slot) : Live (s.interrupt target) p where
  toSound := live.toSound.interrupt
  running := by
    unfold Schedule.interrupt
    split
    · by_cases isTarget : p = target <;> simp [isTarget, live.running]
    · exact live.running
  absent := by
    unfold Schedule.interrupt
    split
    · rename_i waits
      have other : p ≠ target := by
        rintro rfl
        rw [live.running] at waits
        cases waits
      simp [other, live.absent]
    · exact live.absent

theorem remove (live : Live s p) (target : Slot) : Live (s.remove target) p where
  toSound := live.toSound.remove
  running := by
    unfold Schedule.remove
    split <;> exact live.running
  absent := by
    unfold Schedule.remove
    split
    · exact fun queued => live.absent (List.mem_of_mem_erase queued)
    · exact live.absent

theorem release (live : Live s p) (target : Slot) : Live (s.release target) p where
  toSound := live.toSound.release
  running := by
    rw [Schedule.release, endWait_state]
    split
    · rfl
    · exact live.running
  absent := by
    intro queued
    rcases List.mem_append.mp queued with old | woken
    · exact live.absent old
    · have waits := ((mem_waiting s p).mp woken).1
      rw [live.running] at waits
      cases waits

end Live

theorem Live.after {s s' : Schedule} {p p' : Slot} {action : Action} (live : Live s p)
    (allowed : s.Allows action) (done : s.after p action = some (s', p')) : Live s' p' := by
  have awake : s.state p ≠ .sleep := by simp [live.running]
  cases action with
  | stay =>
      cases done
      exact live
  | create i pid =>
      simp only [Schedule.after, Option.some.injEq, Prod.mk.injEq] at done
      obtain ⟨rfl, rfl⟩ := done
      have free : s.state i = .stopped := allowed
      have other : p ≠ i := by
        rintro rfl
        rw [live.running] at free
        cases free
      have absent : i ∉ s.queue := by
        intro queued
        rw [live.queued i queued] at free
        cases free
      have renamed : ∀ j, (s.set i fun entry => { entry with pid := pid }).state j =
          s.state j := fun j => by by_cases same : j = i <;> simp [Schedule.state, same]
      have sound : Sound (s.set i fun entry => { entry with pid := pid }) :=
        live.toSound.congr rfl rfl renamed
      refine ⟨sound.enqueue absent (by simp [renamed, free]), ?_, ?_⟩
      · simp [renamed, live.running, other]
      · simp [live.absent, other]
  | yield => exact (live.toSound.enqueue live.absent awake).pop done
  | stop => exact (live.toSound.setState live.absent awake (by simp)).pop done
  | wait pid =>
      exact (live.toSound.wait live.absent awake pid).pop done
  | block => exact (live.toSound.setState live.absent awake (by simp)).pop done
  | drop => exact live.toSound.pop done
  | sleep ticks => exact (live.toSound.sleep live.absent awake ticks).pop done
  | timer =>
      have tick := live.tick
      exact (live.toSound.tick.enqueue tick.absent (by simp [tick.running])).pop done
  | kill target fatal =>
      simp only [Schedule.after, Option.some.injEq, Prod.mk.injEq] at done
      obtain ⟨rfl, rfl⟩ := done
      have woken := live.interrupt target
      cases fatal with
      | false => exact woken
      | true => exact (woken.remove target).release target

theorem Live.step {s s' : Schedule} {p p' : Slot} {action : Action} (live : Live s p)
    (allowed : s.Allows action) (step : s.Step p action s' p') : Live s' p' := by
  obtain ⟨value, value', middle, done, rfl⟩ := step
  have allowed' : (s.setRet p value).Allows action := by
    cases action with
    | create i pid => simpa [Allows] using allowed
    | kill target fatal => simpa [Allows] using allowed
    | _ => trivial
  exact ((live.setRet p value).after allowed' done).setRet p value'

end Schedule

end XerosKernel
