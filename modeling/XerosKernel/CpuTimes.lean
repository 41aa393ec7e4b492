import XerosKernel.Countdown
import XerosKernel.Preemption
import XerosKernel.SleepContract

/-!
The accounting of processor time. The entry of a process counts the timer interrupts that find it
running, and `getCPUtimes` reports the entries of all processes that are not stopped, in the order of
their slots.
-/

namespace XerosKernel

open Execution Ia32

variable {env : Env} {kernel kernel' kernel'' : Kernel} {p i : Slot} {ports : Ports}
  {request : Request} {d d' start : Dispatcher} {trap : Trap} {traps : List Trap}

/-! The entries. -/

def SameTimes (kernel kernel' : Kernel) : Prop :=
  ∀ i, (kernel'.proctab i).cpuTime = (kernel.proctab i).cpuTime

namespace SameTimes

theorem refl : SameTimes kernel kernel := fun _ => rfl

theorem trans (first : SameTimes kernel kernel') (second : SameTimes kernel' kernel'') :
    SameTimes kernel kernel'' := fun i => (second i).trans (first i)

theorem moves (moves : Moves kernel kernel') : SameTimes kernel kernel' := by
  intro i
  have personal := congrArg (·.cpuTime) (moves.personal i)
  exact personal

theorem touches (touches : Touches p kernel kernel') : SameTimes kernel kernel' :=
  fun i => touches.same (·.cpuTime) (fun _ => rfl) i

theorem modify (kernel : Kernel) (p : Slot) (write : Pcb → Pcb)
    (same : (write (kernel.proctab p)).cpuTime = (kernel.proctab p).cpuTime) :
    SameTimes kernel (kernel.modify p write) :=
  fun i => kernel.modify_same p write (·.cpuTime) same i

theorem create {fp stack value : Word}
    (created : create env kernel fp stack = some (value, kernel')) : SameTimes kernel kernel' := by
  rcases create_cases created with outside | ⟨slot, base, esp, pid, _, _, outside, rfl⟩
  · intro i
    rw [outside.table]
  · have filled : SameTimes kernel (base.modify slot fun pcb =>
        { pcb with esp := esp, state := .ready, pid := pid }) := by
      intro i
      rw [← outside.table]
      exact modify base slot _ rfl i
    exact filled.trans (moves (ready_moves _ slot))

theorem kill {pid signum : Word}
    (served : serve env kernel p ports (.kill pid signum) = some d) : SameTimes kernel d.kernel := by
  cases called : signalCalled kernel (.kill pid signum) with
  | none =>
      obtain ⟨⟨value, kernel'⟩, killed, rfl⟩ := Option.map_eq_some_iff.mp served
      obtain ⟨_, rfl⟩ := uncalled_dropped called killed
      exact touches (resume_private kernel' p value).toTouches
  | some call =>
      obtain ⟨kernel', target, signum'⟩ := call
      obtain ⟨_, rfl⟩ := called_answer (p := p) called served
      have signalled := touches (signal_touches env kernel' target signum')
      exact ((moves (signalCalled_moves called)).trans signalled).trans
        (touches (resume_private _ p _).toTouches)

theorem read {fd buff bufflen : Word}
    (served : serve env kernel p ports (.read fd buff bufflen) = some d) :
    SameTimes kernel d.kernel := by
  obtain ⟨⟨value, kernel'⟩, read, rest⟩ := Option.bind_eq_some_iff.mp served
  have answered : SameTimes kernel kernel' := by
    rcases diRead_cases read with ⟨stays, _⟩ | ⟨_, _, middle, stays, rfl⟩ |
      ⟨_, middle, stays, rfl⟩ | ⟨_, _, stays⟩
    · exact touches stays.toTouches
    · exact (touches stays.toTouches).trans (moves (ready_moves middle p))
    · exact (touches stays.toTouches).trans (modify middle p _ rfl)
    · exact touches stays.toTouches
  simp only at rest
  split at rest
  · exact answered.trans (moves (reschedule_moves rest))
  · cases rest
    exact answered.trans (touches (resume_private kernel' p value).toTouches)

end SameTimes

theorem serve_times (served : serve env kernel p ports request = some d) (i : Slot) :
    (d.kernel.proctab i).cpuTime =
      if request = .timer ∧ p = i then (kernel.proctab i).cpuTime + 1
      else (kernel.proctab i).cpuTime := by
  by_cases isTimer : request = .timer
  · subst isTimer
    obtain ⟨kernel', ticked, popped⟩ := Option.bind_eq_some_iff.mp served
    have before := SameTimes.moves (tick_moves ticked) i
    have behind := SameTimes.moves ((ready_moves _ p).trans (reschedule_moves popped)) i
    rw [behind, Kernel.modify_proctab]
    by_cases isP : i = p
    · subst isP
      simp only [and_self, if_true, before]
    · rw [if_neg isP, if_neg fun both => isP both.2.symm, before]
  · rw [if_neg fun both => isTimer both.1]
    revert i
    cases request with
    | timer => exact absurd rfl isTimer
    | create fp stack =>
        obtain ⟨⟨value, kernel'⟩, created, rfl⟩ := Option.map_eq_some_iff.mp served
        exact (SameTimes.create created).trans
          (SameTimes.touches (resume_private kernel' p value).toTouches)
    | yield => exact SameTimes.moves ((ready_moves kernel p).trans (reschedule_moves served))
    | stop =>
        exact (SameTimes.modify kernel p _ rfl).trans (SameTimes.moves (reschedule_moves served))
    | kill pid signum => exact SameTimes.kill served
    | sleep len =>
        obtain ⟨kernel', slept, popped⟩ := Option.bind_eq_some_iff.mp served
        exact SameTimes.moves ((sleep_moves slept).trans (reschedule_moves popped))
    | wait pid =>
        rcases serve_wait served with ⟨_, rfl⟩ | ⟨_, _, popped⟩
        · exact SameTimes.touches (resume_private kernel p _).toTouches
        · exact (SameTimes.modify kernel p _ rfl).trans (SameTimes.moves (reschedule_moves popped))
    | read fd buff bufflen => exact SameTimes.read served
    | _ => exact SameTimes.touches (serve_local (by trivial) served).2.toTouches

def Charges (i : Slot) (d : Dispatcher) (trap : Trap) : Bool := trap.isTick && d.current = i

theorem dispatch_times (stepped : dispatch env d trap = some d') (i : Slot) :
    (d'.kernel.proctab i).cpuTime =
      if Charges i d trap then (d.kernel.proctab i).cpuTime + 1
      else (d.kernel.proctab i).cpuTime := by
  rw [Dispatcher.dispatch_eq] at stepped
  have entered := SameTimes.touches (contextswitch_private d.kernel d.current trap).toTouches i
  rw [serve_times stepped i]
  have counts : (d.request trap = .timer ∧ d.current = i) ↔ Charges i d trap = true := by
    rw [request_timer, Charges, Bool.and_eq_true, decide_eq_true_eq]
  simp only [counts]
  rw [show ((d.entered trap).proctab i).cpuTime = (d.kernel.proctab i).cpuTime from entered]

theorem boot_times (booted : boot env = some d) (i : Slot) : (d.kernel.proctab i).cpuTime = 0 := by
  simp only [boot, Option.bind_eq_bind, Option.bind_eq_some_iff, Prod.exists] at booted
  obtain ⟨heap, _, _, idle, created, _, kernel, created', popped⟩ := booted
  exact ((SameTimes.create created).trans (SameTimes.create created')).trans
    (SameTimes.moves (reschedule_moves popped)) i

theorem iterate_succ_word (n : Nat) : (· + 1)^[n] (0 : Word) = BitVec.ofNat 32 n := by
  induction n with
  | zero => rfl
  | succ n ih =>
      rw [Function.iterate_succ_apply', ih]
      apply BitVec.eq_of_toNat_eq
      simp

theorem times_counted (booted : boot env = some start)
    (reached : run (dispatch env) start traps = some d) (i : Slot) : (d.kernel.proctab i).cpuTime =
      BitVec.ofNat 32 (tally (dispatch env) (Charges i) start traps) := by
  have counted := run_tally (Charges i) (fun d => (d.kernel.proctab i).cpuTime) (· + 1)
    (fun d trap d' stepped => dispatch_times stepped i) reached
  rw [boot_times booted i, iterate_succ_word] at counted
  exact counted

/-! The table. -/

def reported (kernel : Kernel) (procs : List Slot) : List Slot :=
  procs.filter fun i => (kernel.proctab i).state ≠ .stopped

/-- The three columns of the table have an entry for each of the processes. -/
structure Columns (env : Env) (kernel : Kernel) (p : Slot) (ps : Word) (procs : List Slot)
    (mem : Memory) : Prop where
  pid : words mem (ps + 4) procs.length = procs.map fun i => (kernel.proctab i).pid
  status : words mem (ps + 4 + 256) procs.length = procs.map fun i =>
    if (kernel.proctab p).pid = (kernel.proctab i).pid then ProcState.code env .running
    else (kernel.proctab i).state.code env
  cpuTime : words mem (ps + 4 + 512) procs.length = procs.map fun i =>
    (kernel.proctab i).cpuTime * MILLISECONDS_TICK

def storeRow (mem : Memory) (ps slot pid status time : Word) : Memory :=
  storeWord (storeWord (storeWord mem (ps + 4 + 4 * slot) pid) (ps + 4 + 256 + 4 * slot) status)
    (ps + 4 + 512 + 4 * slot) time

section Row

variable {mem : Memory} {ps slot pid status time column : Word}

theorem four_slots (room : slot.toNat < 64) : (4 * slot).toNat = 4 * slot.toNat := by
  rw [BitVec.toNat_mul]
  change 4 * slot.toNat % 4294967296 = _
  omega

theorem row_apart (room : slot.toNat < 64) (later : 0 < slot.toNat) {offset : Word}
    (isOffset : offset = 0 ∨ offset = 256 ∨ offset = 512)
    (isColumn : column = ps + 4 ∨ column = ps + 4 + 256 ∨ column = ps + 4 + 512) :
    Apart (ps + 4 + offset + 4 * slot) 4 column (4 * slot.toNat) := by
  have bytes := four_slots room
  generalize 4 * slot = four at bytes
  generalize ps + 4 = first at isColumn
  rcases isOffset with rfl | rfl | rfl
  · rcases isColumn with rfl | rfl | rfl
    · constructor <;> bv_omega
    · constructor <;> bv_omega
    · constructor <;> bv_omega
  · rcases isColumn with rfl | rfl | rfl
    · constructor <;> bv_omega
    · constructor <;> bv_omega
    · constructor <;> bv_omega
  · rcases isColumn with rfl | rfl | rfl
    · constructor <;> bv_omega
    · constructor <;> bv_omega
    · constructor <;> bv_omega

theorem storeRow_above (room : slot.toNat < 64)
    (isColumn : column = ps + 4 ∨ column = ps + 4 + 256 ∨ column = ps + 4 + 512) :
    words (storeRow mem ps slot pid status time) column slot.toNat =
      words mem column slot.toNat := by
  by_cases later : 0 < slot.toNat
  · have first := row_apart room later (Or.inl rfl) isColumn
    have start : ps + 4 + 0 = ps + 4 := BitVec.add_zero _
    rw [start] at first
    have third : words (storeRow mem ps slot pid status time) column slot.toNat = _ :=
      words_store _ _ _ _ _ (row_apart room later (Or.inr (Or.inr rfl)) isColumn)
    have second : words (storeWord (storeWord mem (ps + 4 + 4 * slot) pid)
        (ps + 4 + 256 + 4 * slot) status) column slot.toNat = _ :=
      words_store _ _ _ _ _ (row_apart room later (Or.inr (Or.inl rfl)) isColumn)
    rw [third, second]
    exact words_store _ _ _ _ _ first
  · have none : slot.toNat = 0 := by omega
    rw [none, words, words]

theorem storeRow_row (room : slot.toNat < 64) :
    loadWord (storeRow mem ps slot pid status time) (ps + 4 + 4 * slot) = pid ∧
    loadWord (storeRow mem ps slot pid status time) (ps + 4 + 256 + 4 * slot) = status ∧
    loadWord (storeRow mem ps slot pid status time) (ps + 4 + 512 + 4 * slot) = time := by
  have bytes := four_slots room
  generalize isFour : 4 * slot = four at bytes
  rw [storeRow, isFour, loadWord_storeWord]
  generalize ps + 4 = first
  refine ⟨?_, ?_, rfl⟩
  · rw [loadWord_storeWord_other (by bv_omega) (by bv_omega),
      loadWord_storeWord_other (by bv_omega) (by bv_omega), loadWord_storeWord]
  · rw [loadWord_storeWord_other (by bv_omega) (by bv_omega), loadWord_storeWord]

end Row

theorem column_snoc {mem mem' : Memory} {column slot : Word} {procs : List Slot}
    {field : Slot → Word} (length : procs.length = slot.toNat)
    (above : words mem column procs.length = procs.map field)
    (kept : words mem' column slot.toNat = words mem column slot.toNat)
    (stored : loadWord mem' (column + 4 * slot) = field i) :
    words mem' column (procs ++ [i]).length = (procs ++ [i]).map field := by
  have isSlot : BitVec.ofNat 32 procs.length = slot := by
    rw [length, BitVec.ofNat_toNat, BitVec.setWidth_eq]
  have first : words mem' column procs.length = procs.map field := by
    rw [length, kept, ← length]
    exact above
  rw [List.length_append, List.length_singleton, words_add, first, isSlot, List.map_append]
  exact congrArg (procs.map field ++ [·]) stored

theorem reported_snoc (kernel : Kernel) (procs : List Slot) (i : Slot) :
    reported kernel (procs ++ [i]) =
      if (kernel.proctab i).state ≠ .stopped then reported kernel procs ++ [i]
      else reported kernel procs := by
  by_cases alive : (kernel.proctab i).state ≠ .stopped
  · rw [if_pos alive]
    simp [reported, alive]
  · rw [if_neg alive]
    rw [not_not] at alive
    simp [reported, alive]

section Table

variable {ps : Word} {procs : List Slot} {table : Word × Memory}

theorem enterRow_live (alive : (kernel.proctab i).state ≠ .stopped) :
    enterRow env kernel p ps table i = (table.1 + 1, storeRow table.2 ps (table.1 + 1)
      (kernel.proctab i).pid
      (if (kernel.proctab p).pid = (kernel.proctab i).pid then ProcState.code env .running
        else (kernel.proctab i).state.code env)
      ((kernel.proctab i).cpuTime * MILLISECONDS_TICK)) := by
  simp only [enterRow]
  rw [if_pos alive]
  rfl

theorem Columns.enter (columns : Columns env kernel p ps procs table.2)
    (row : table.1 + 1 = BitVec.ofNat 32 procs.length) (room : procs.length < 64)
    (alive : (kernel.proctab i).state ≠ .stopped) :
    Columns env kernel p ps (procs ++ [i]) (enterRow env kernel p ps table i).2 := by
  have slot : procs.length = (table.1 + 1).toNat := by
    rw [row, BitVec.toNat_ofNat]
    omega
  have inside : (table.1 + 1).toNat < 64 := by omega
  rw [enterRow_live alive]
  constructor
  · exact column_snoc slot columns.pid (storeRow_above inside (Or.inl rfl))
      (storeRow_row inside).1
  · exact column_snoc slot columns.status (storeRow_above inside (Or.inr (Or.inl rfl)))
      (storeRow_row inside).2.1
  · exact column_snoc slot columns.cpuTime (storeRow_above inside (Or.inr (Or.inr rfl)))
      (storeRow_row inside).2.2

theorem enterRows_columns (before rest : List Slot) (few : (before ++ rest).length ≤ 64)
    (row : table.1 + 1 = BitVec.ofNat 32 (reported kernel before).length)
    (columns : Columns env kernel p ps (reported kernel before) table.2) :
    (rest.foldl (enterRow env kernel p ps) table).1 + 1 =
      BitVec.ofNat 32 (reported kernel (before ++ rest)).length ∧
    Columns env kernel p ps (reported kernel (before ++ rest))
      (rest.foldl (enterRow env kernel p ps) table).2 := by
  induction rest generalizing before table with
  | nil =>
      rw [List.append_nil]
      exact ⟨row, columns⟩
  | cons i rest ih =>
      have split : before ++ i :: rest = before ++ [i] ++ rest := by simp
      rw [split] at few ⊢
      rw [List.foldl_cons]
      have fewer : (reported kernel before).length ≤ before.length := List.length_filter_le _ _
      simp only [List.length_append, List.length_singleton] at few
      by_cases alive : (kernel.proctab i).state ≠ .stopped
      · have longer : reported kernel (before ++ [i]) = reported kernel before ++ [i] := by
          rw [reported_snoc, if_pos alive]
        apply ih
        · simp only [List.length_append, List.length_singleton]
          exact few
        · rw [enterRow_row, if_pos alive, row, longer, List.length_append, List.length_singleton,
            BitVec.ofNat_add]
          rfl
        · rw [longer]
          exact columns.enter row (by omega) alive
      · have same : reported kernel (before ++ [i]) = reported kernel before := by
          rw [reported_snoc, if_neg alive]
        have skipped : enterRow env kernel p ps table i = table := by
          simp only [enterRow]
          exact if_neg alive
        apply ih
        · simp only [List.length_append, List.length_singleton]
          exact few
        · rw [skipped, same]
          exact row
        · rw [skipped, same]
          exact columns

end Table

theorem getCPUtimes_columns (kernel : Kernel) (p : Slot) {ps : Word} (fills : FillsTable env ps) :
    (getCPUtimes env kernel p ps).1 + 1 =
      BitVec.ofNat 32 (reported kernel (List.finRange MAX_PROC)).length ∧
    Columns env kernel p ps (reported kernel (List.finRange MAX_PROC))
      (getCPUtimes env kernel p ps).2.mem := by
  have empty : Columns env kernel p ps (reported kernel []) kernel.mem := ⟨rfl, rfl, rfl⟩
  have row : (-1 : Word) + 1 = BitVec.ofNat 32 (reported kernel []).length := by
    rw [reported, List.filter_nil, List.length_nil]
    decide
  rw [getCPUtimes_fills kernel p fills]
  exact enterRows_columns [] (List.finRange MAX_PROC) (by simp) row empty

theorem Columns.congr {ps : Word} {procs : List Slot} {mem : Memory}
    (same : ∀ i, (kernel'.proctab i).scheduled = (kernel.proctab i).scheduled)
    (columns : Columns env kernel p ps procs mem) : Columns env kernel' p ps procs mem := by
  have pid : ∀ i, (kernel'.proctab i).pid = (kernel.proctab i).pid :=
    fun i => congrArg (·.pid) (same i)
  have state : ∀ i, (kernel'.proctab i).state = (kernel.proctab i).state :=
    fun i => congrArg (·.state) (same i)
  have time : ∀ i, (kernel'.proctab i).cpuTime = (kernel.proctab i).cpuTime :=
    fun i => congrArg (·.cpuTime) (same i)
  constructor
  · simp only [pid]
    exact columns.pid
  · simp only [pid, state]
    exact columns.status
  · simp only [time]
    exact columns.cpuTime

/-- In every run from start-up, `sysgetcputimes` returns the index of the last row and fills a row
with the number, the status and the time of each process that is not stopped; and the time is ten
times the number of timer interrupts that found the slot of the process running. -/
theorem cpu_times_reported {env : Env} {traps : List Trap} {trap : Trap} {ps : Word}
    {start d d' : Dispatcher} (booted : boot env = some start)
    (reached : run (dispatch env) start traps = some d)
    (request : d.request trap = .cputimes ps) (fills : FillsTable env ps)
    (stepped : dispatch env d trap = some d') :
    (d'.kernel.proctab d.current).ret + 1 =
      BitVec.ofNat 32 (reported d.kernel (List.finRange MAX_PROC)).length ∧
    Columns env d.kernel d.current ps (reported d.kernel (List.finRange MAX_PROC)) d'.kernel.mem ∧
    ∀ i, (d.kernel.proctab i).cpuTime =
      BitVec.ofNat 32 (tally (dispatch env) (Charges i) start traps) := by
  rw [Dispatcher.dispatch_eq, request] at stepped
  cases stepped
  have same : ∀ i, (d.kernel.proctab i).scheduled = ((d.entered trap).proctab i).scheduled :=
    fun i => ((contextswitch_private d.kernel d.current trap).toTouches.same Pcb.scheduled
      (fun _ => rfl) i).symm
  have procs : reported (d.entered trap) (List.finRange MAX_PROC) =
      reported d.kernel (List.finRange MAX_PROC) := by
    have state : ∀ i, ((d.entered trap).proctab i).state = (d.kernel.proctab i).state :=
      entered_state d trap
    simp only [reported, state]
  obtain ⟨last, columns⟩ := getCPUtimes_columns (d.entered trap) d.current fills
  rw [procs] at last columns
  refine ⟨?_, columns.congr same, times_counted booted reached⟩
  rw [resume_ret]
  exact last

theorem cpu_times_reported_turns : ∃ start d d' : Dispatcher, boot sampleEnv = some start ∧
    run (dispatch sampleEnv) start [timerTrap, timerTrap, timerTrap] = some d ∧
    dispatch sampleEnv d (sysgetcputimes sampleFrame 0x90000) = some d' ∧
    Columns sampleEnv d.kernel d.current 0x90000 [1, 2] d'.kernel.mem ∧
    tally (dispatch sampleEnv) (Charges 1) start [timerTrap, timerTrap, timerTrap] = 2 ∧
    (d.kernel.proctab 1).cpuTime = 2 := by
  have check : ∃ start ∈ boot sampleEnv,
      tally (dispatch sampleEnv) (Charges 1) start [timerTrap, timerTrap, timerTrap] = 2 ∧
      ∃ d ∈ run (dispatch sampleEnv) start [timerTrap, timerTrap, timerTrap],
        d.request (sysgetcputimes sampleFrame 0x90000) = .cputimes 0x90000 ∧
        reported d.kernel (List.finRange MAX_PROC) = [1, 2] ∧
        ∃ d' ∈ dispatch sampleEnv d (sysgetcputimes sampleFrame 0x90000), True := by
    decide +kernel
  obtain ⟨start, booted, two, d, reached, request, procs, d', stepped, _⟩ := check
  obtain ⟨_, columns, times⟩ := cpu_times_reported booted reached request (by decide) stepped
  rw [procs] at columns
  refine ⟨start, d, d', booted, reached, stepped, columns, two, ?_⟩
  rw [times, two]
  rfl

end XerosKernel
