import XerosKernel.KillEffects

/-!
The sleep queue read as deadlines. A sleeper has the sum of the differences up to it left to
sleep; `sleep`, `removeFromSleep` and `tick` act on these times, and `killInSleep` reports one.
-/

namespace XerosKernel

open IntrusiveList Execution

abbrev timeLeft (entries : List (Slot × Nat)) : List (Slot × Nat) := DeltaList.deadlines 0 entries

/-- `sleep` puts `p` behind all sleepers that wake no later, and changes nothing for the others. -/
def InsertsSleeper (kernel : Kernel) (entries : List (Slot × Nat)) (p : Slot) (len : Word) : Prop :=
  ∃ kernel' entries' front back, sleep kernel p len = some kernel' ∧ SleepQueue kernel' entries' ∧
    timeLeft entries = front ++ back ∧
    timeLeft entries' = front ++ (p, len.toNat / 10) :: back ∧
    (∀ entry ∈ front, entry.2 ≤ len.toNat / 10) ∧ ∀ entry ∈ back, len.toNat / 10 < entry.2

def RemovesSleeper (kernel : Kernel) (entries : List (Slot × Nat)) (p : Slot) : Prop :=
  ∃ kernel' entries', removeFromSleep kernel p = some kernel' ∧ SleepQueue kernel' entries' ∧
    timeLeft entries' = (timeLeft entries).filter fun entry => entry.1 ≠ p

/-- `tick` takes one tick from every sleeper, and readies those that have none left, in the order
of the queue, and no others. -/
def CountsDown (kernel : Kernel) (entries : List (Slot × Nat)) : Prop :=
  ∃ kernel' entries' woken, tick kernel = some kernel' ∧ SleepQueue kernel' entries' ∧
    timeLeft entries = woken.map (fun i => (i, 1)) ++
      (timeLeft entries').map (fun entry => (entry.1, entry.2 + 1)) ∧
    (∀ entry ∈ timeLeft entries', 0 < entry.2) ∧ Appended kernel kernel' woken ∧
    (∀ i ∈ woken, (kernel'.proctab i).state = .ready ∧ (kernel'.proctab i).ret = 0) ∧
    ∀ i ∉ woken, (kernel'.proctab i).state = (kernel.proctab i).state

section Deadlines

variable {kernel kernel' : Kernel} {entries : List (Slot × Nat)} {p : Slot}

theorem SleepQueue.inserts (queue : SleepQueue kernel entries) {len : Word} (positive : ¬ len < 1)
    (absent : p ∉ entries.map Prod.fst) : InsertsSleeper kernel entries p len := by
  obtain ⟨kernel', slept, queue', _⟩ := queue.insert positive absent
  obtain ⟨front, back, split, inserted, sooner, later⟩ :=
    DeltaList.deadlines_insert 0 (len.toNat / 10) p entries
  have ticks : (len / MILLISECONDS_TICK).toNat = len.toNat / 10 := BitVec.toNat_udiv
  rw [Nat.zero_add] at inserted sooner later
  rw [ticks] at queue'
  exact ⟨kernel', _, front, back, slept, queue', split, inserted, sooner, later⟩

theorem SleepQueue.removes (queue : SleepQueue kernel entries)
    (bounded : ∀ entry ∈ timeLeft entries, entry.2 < 2 ^ 31) (member : p ∈ entries.map Prod.fst) :
    RemovesSleeper kernel entries p := by
  have bounded' : ∀ entry ∈ timeLeft entries, entry.2 < 2 ^ 32 := by
    intro entry isIn
    have bound := bounded entry isIn
    omega
  obtain ⟨kernel', removed, queue'⟩ := queue.remove bounded' member
  exact ⟨kernel', _, removed, queue', DeltaList.deadlines_delete queue.chain.nodup⟩

theorem woken_eq_nil (pending : DeltaList.Pending entries) :
    (∀ entry ∈ timeLeft entries, 1 < entry.2) ↔ (DeltaList.tick entries).1 = [] := by
  rw [timeLeft, DeltaList.deadlines_tick pending]
  constructor
  · intro more
    rcases woken : (DeltaList.tick entries).1 with _ | ⟨first, rest⟩
    · rfl
    · have bound := more (first, 1) (by simp [woken])
      simp at bound
  · intro none entry isIn
    rw [none, List.map_nil, List.nil_append, show (1 : Nat) = 0 + 1 from rfl,
      DeltaList.deadlines_shift] at isIn
    obtain ⟨⟨i, time⟩, isLater, rfl⟩ := List.mem_map.mp isIn
    have positive := (DeltaList.tick_pending entries).deadline_pos isLater
    simp only
    omega

theorem SleepQueue.countsDown (queue : SleepQueue kernel entries)
    (pending : DeltaList.Pending entries)
    (apart : (DeltaList.tick entries).1 ≠ [] → ∀ t ∈ kernel.tail, t ∉ entries.map Prod.fst) :
    CountsDown kernel entries := by
  rw [← tickEntries_pending pending] at apart
  obtain ⟨kernel', ticked, appended, queue', rest⟩ := tick_appends queue apart
  rw [tickEntries_pending pending] at appended queue' rest
  have entry : ∀ i, (kernel'.proctab i).state = (if i ∈ (DeltaList.tick entries).1 then .ready
      else (kernel.proctab i).state) ∧ (i ∈ (DeltaList.tick entries).1 →
        (kernel'.proctab i).ret = 0) := by
    intro i
    have state := congrArg (fun k : Kernel => (k.proctab i).state) rest
    have ret := congrArg (fun k : Kernel => (k.proctab i).ret) rest
    constructor
    · refine state.trans ?_
      simp only [Kernel.wake]
      split <;> rfl
    · intro isWoken
      refine ret.trans ?_
      simp only [Kernel.wake, if_pos isWoken]
  refine ⟨kernel', _, _, ticked, queue', ?_, ?_, appended, ?_, ?_⟩
  · rw [← DeltaList.deadlines_shift]
    exact DeltaList.deadlines_tick pending
  · rintro ⟨i, time⟩ isIn
    exact (DeltaList.tick_pending entries).deadline_pos isIn
  · intro i isWoken
    exact ⟨(entry i).1.trans (if_pos isWoken), (entry i).2 isWoken⟩
  · intro i notWoken
    exact (entry i).1.trans (if_neg notWoken)

theorem CountsDown.apart (queue : SleepQueue kernel entries) (counts : CountsDown kernel entries) :
    (∀ entry ∈ timeLeft entries, 1 < entry.2) ∨ ∀ t ∈ kernel.tail, t ∉ entries.map Prod.fst := by
  obtain ⟨kernel', entries', woken, _, queue', split, positive, appended, _⟩ := counts
  rcases eq_or_ne woken [] with rfl | more
  · refine Or.inl fun entry isIn => ?_
    rw [split] at isIn
    obtain ⟨other, isLater, rfl⟩ := List.mem_map.mp isIn
    have bound := positive other isLater
    simp only
    omega
  · refine Or.inr fun t isTail asleep => ?_
    have behind : Chain kernel'.link (kernel'.link t) woken := by
      have chain := appended.chain more
      rwa [Option.mem_def.mp isTail] at chain
    have keys : entries.map Prod.fst = woken ++ entries'.map Prod.fst := by
      rw [← DeltaList.map_fst_deadlines 0 entries, ← DeltaList.map_fst_deadlines 0 entries']
      have mapped := congrArg (List.map Prod.fst) split
      simpa [Function.comp_def] using mapped
    have unique := queue.chain.nodup
    rw [keys] at asleep unique
    rcases List.mem_append.mp asleep with isWoken | sleepsOn
    · obtain ⟨before, after, parts⟩ := List.append_of_mem isWoken
      have rest : Chain kernel'.link (kernel'.link t) after := by
        have chain := behind
        rw [parts] at chain
        exact chain.next_of_split
      have same := congrArg List.length (Seg.unique behind rest)
      rw [parts, List.length_append, List.length_cons] at same
      omega
    · obtain ⟨before, after, parts⟩ := List.append_of_mem sleepsOn
      have rest : Chain kernel'.link (kernel'.link t) after := by
        have chain := queue'.chain
        rw [parts] at chain
        exact chain.next_of_split
      have same : woken = after := Seg.unique behind rest
      obtain ⟨first, isFirst⟩ := List.exists_mem_of_ne_nil woken more
      refine (List.nodup_append.mp unique).2.2 first isFirst first ?_ rfl
      rw [parts, ← same]
      simp [isFirst]

theorem SleepQueue.countsDown_iff (queue : SleepQueue kernel entries)
    (pending : DeltaList.Pending entries) : CountsDown kernel entries ↔
      (∀ entry ∈ timeLeft entries, 1 < entry.2) ∨
        ∀ t ∈ kernel.tail, t ∉ entries.map Prod.fst := by
  constructor
  · exact CountsDown.apart queue
  · rintro (later | apart)
    · exact queue.countsDown pending fun more => absurd ((woken_eq_nil pending).mp later) more
    · exact queue.countsDown pending fun _ => apart

end Deadlines

theorem sleepQueue_counts_time {kernel : Kernel} {entries : List (Slot × Nat)}
    (queue : SleepQueue kernel entries) (bounded : ∀ entry ∈ timeLeft entries, entry.2 < 2 ^ 31) :
    (∀ (p : Slot) (len : Word), ¬ len < 1 → p ∉ entries.map Prod.fst →
      InsertsSleeper kernel entries p len) ∧
    (∀ p ∈ entries.map Prod.fst, RemovesSleeper kernel entries p) ∧
    (DeltaList.Pending entries → (CountsDown kernel entries ↔
      (∀ entry ∈ timeLeft entries, 1 < entry.2) ∨
        ∀ t ∈ kernel.tail, t ∉ entries.map Prod.fst)) :=
  ⟨fun _ _ positive absent => queue.inserts positive absent,
    fun _ member => queue.removes bounded member, queue.countsDown_iff⟩

section Report

variable {env : Env} {kernel kernel' : Kernel} {entries : List (Slot × Nat)} {p : Slot} {time : Nat}

def between (entries : List (Slot × Nat)) (p : Slot) : List (Slot × Nat) :=
  (entries.takeWhile fun entry => entry.1 ≠ p).tail

theorem report_first (diff : Nat) :
    diff * 10 % 2 ^ 32 = 10 * diff ↔ 10 * diff < 2 ^ 32 := by
  omega

theorem report_behind (first middle diff : Nat) :
    (diff + first) % 2 ^ 32 * 10 % 2 ^ 32 = 10 * (first + middle + diff) ↔
      10 * (first + middle + diff) < 2 ^ 32 ∧ middle = 0 := by
  constructor
  · intro same
    have below := Nat.mod_lt ((diff + first) % 2 ^ 32 * 10) (Nat.two_pow_pos 32)
    have atMost := Nat.mod_le ((diff + first) % 2 ^ 32 * 10) (2 ^ 32)
    have inner := Nat.mod_le (diff + first) (2 ^ 32)
    rw [same] at below atMost
    refine ⟨below, ?_⟩
    clear same below
    generalize (diff + first) % 2 ^ 32 = reported at atMost inner
    omega
  · rintro ⟨below, rfl⟩
    have small : diff + first < 2 ^ 32 := by omega
    rw [Nat.mod_eq_of_lt small, Nat.mod_eq_of_lt (by omega)]
    omega

theorem between_split {front back : List (Slot × Nat)} {diff : Nat}
    (absent : p ∉ front.map Prod.fst) : between (front ++ (p, diff) :: back) p = front.tail := by
  have others : ∀ entry ∈ front, decide (entry.1 ≠ p) = true := by
    intro entry isIn
    exact decide_eq_true fun same => absent (same ▸ List.mem_map_of_mem isIn)
  rw [between, List.takeWhile_append_of_pos others, List.takeWhile_cons_of_neg (by simp),
    List.append_nil]

theorem SleepQueue.sleepdiff (queue : SleepQueue kernel entries) {diff : Nat}
    (member : (p, diff) ∈ entries) : (kernel.proctab p).sleepdiff.toNat = diff := by
  rw [← queue.diffs, Kernel.sleepers] at member
  obtain ⟨i, _, same⟩ := List.mem_map.mp member
  obtain ⟨rfl, rfl⟩ := Prod.mk.inj same
  rfl

/-- `killInSleep` adds the first difference to the one of `p` and leaves out those between. -/
theorem SleepQueue.reports (queue : SleepQueue kernel entries)
    (member : (p, time) ∈ timeLeft entries) :
    ∃ left, killInSleep kernel p = some left ∧
      (left.toNat = MILLISECONDS_TICK.toNat * time ↔
        MILLISECONDS_TICK.toNat * time < 2 ^ 32 ∧ ∀ entry ∈ between entries p, entry.2 = 0) := by
  obtain ⟨front, diff, back, rfl, rfl⟩ := DeltaList.deadline_split member
  have isDiff : (kernel.proctab p).sleepdiff.toNat = diff := queue.sleepdiff (by simp)
  have tick : MILLISECONDS_TICK.toNat = 10 := rfl
  have absent : p ∉ front.map Prod.fst := by
    have unique := queue.chain.nodup
    rw [List.map_append, List.nodup_append] at unique
    exact fun isIn => unique.2.2 p isIn p (by simp) rfl
  rw [between_split absent, tick, Nat.zero_add]
  cases front with
  | nil =>
      have head : kernel.sleepQ = some p := queue.chain.1
      refine ⟨_, by rw [killInSleep, if_pos head], ?_⟩
      rw [BitVec.toNat_mul, isDiff, tick, List.map_nil, List.sum_nil, Nat.zero_add, report_first]
      simp
  | cons entry rest =>
      obtain ⟨first, firstDiff⟩ := entry
      have head : kernel.sleepQ = some first := queue.chain.1
      have other : first ≠ p := fun same => absent (by simp [same])
      have isFirst : (kernel.proctab first).sleepdiff.toNat = firstDiff :=
        queue.sleepdiff (by simp)
      have zeros : (rest.map Prod.snd).sum = 0 ↔ ∀ entry ∈ rest, entry.2 = 0 := by
        rw [List.sum_eq_zero_iff_forall_eq_nat, List.forall_mem_map]
      refine ⟨_, by rw [killInSleep, head, if_neg (by simpa using other)], ?_⟩
      rw [BitVec.toNat_mul, BitVec.toNat_add, isDiff, isFirst, tick, List.map_cons, List.sum_cons,
        report_behind, zeros, List.tail_cons]

theorem kill_reports {pid signum : Word} {left : Word}
    (asleep : (kernel.proctab p).state = .sleep) (reported : killInSleep kernel p = some left)
    (reached : killTarget kernel pid signum = some p) :
    (signum ≠ 31 → ∃ killed, kill env kernel pid signum = some killed) ∧
    ∀ value kernel', kill env kernel pid signum = some (value, kernel') →
      (kernel'.proctab p).ret = left := by
  have wakes := killWake_sleeping asleep
  rw [reported, Option.map_some] at wakes
  constructor
  · intro other
    rw [kill_reached env reached, wakes, Option.bind_some, if_neg other]
    exact ⟨_, rfl⟩
  · intro value kernel' killed
    rw [kill_ret reached wakes killed, ready_proctab]
    simp

theorem killInSleep_time (queue : SleepQueue kernel entries)
    (member : (p, time) ∈ timeLeft entries) :
    ∃ left, killInSleep kernel p = some left ∧
      (left.toNat = MILLISECONDS_TICK.toNat * time ↔
        MILLISECONDS_TICK.toNat * time < 2 ^ 32 ∧
          ∀ entry ∈ between entries p, entry.2 = 0) ∧
      ∀ env pid signum, (kernel.proctab p).state = .sleep →
        killTarget kernel pid signum = some p →
        (signum ≠ 31 → ∃ killed, kill env kernel pid signum = some killed) ∧
        ∀ value kernel', kill env kernel pid signum = some (value, kernel') →
          (kernel'.proctab p).ret = left := by
  obtain ⟨left, reported, correct⟩ := queue.reports member
  exact ⟨left, reported, correct, fun env pid signum asleep reached =>
    kill_reports asleep reported reached⟩

end Report

section Samples

theorem sleepQueue_pair {kernel : Kernel} {first second : Slot}
    (head : kernel.sleepQ = some first) (behind : kernel.link first = some second)
    (last : kernel.link second = none) :
    SleepQueue kernel (kernel.sleepers [first, second]) :=
  SleepQueue.of_chain ⟨head, behind, last⟩

def twoSleepers : List Trap :=
  [sysyield sampleFrame, syscreate sampleFrame 0x5000 0, syscreate sampleFrame 0x5000 0,
    sysyield sampleFrame, sysyield sampleFrame, syssleep sampleFrame 10, syssleep sampleFrame 20]

theorem twoSleepers_reach : ∃ d, Reaches sampleEnv anyRequest twoSleepers d ∧
    SleepQueue d.kernel [(3, 1), (4, 1)] ∧ d.kernel.tail = some 1 := by
  obtain ⟨d, reaches, found⟩ := reaches_of_check sampleEnv anyRequest twoSleepers
    (fun d => d.kernel.sleepQ = some 3 ∧ d.kernel.link 3 = some 4 ∧ d.kernel.link 4 = none ∧
      d.kernel.sleepers [3, 4] = [(3, 1), (4, 1)] ∧ d.kernel.tail = some 1) (by decide +kernel)
  obtain ⟨head, behind, last, entries, tail⟩ := found
  exact ⟨d, reaches, entries ▸ sleepQueue_pair head behind last, tail⟩

theorem killedSleeper_reach : ∃ d, Reaches sampleEnv anyRequest
    (twoSleepers ++ [syskill sampleFrame 4 5]) d ∧ SleepQueue d.kernel [(3, 1), (4, 1)] ∧
    d.kernel.tail = some 4 := by
  obtain ⟨d, reaches, found⟩ := reaches_of_check sampleEnv anyRequest
    (twoSleepers ++ [syskill sampleFrame 4 5])
    (fun d => d.kernel.sleepQ = some 3 ∧ d.kernel.link 3 = some 4 ∧ d.kernel.link 4 = none ∧
      d.kernel.sleepers [3, 4] = [(3, 1), (4, 1)] ∧ d.kernel.tail = some 4) (by decide +kernel)
  obtain ⟨head, behind, last, entries, tail⟩ := found
  exact ⟨d, reaches, entries ▸ sleepQueue_pair head behind last, tail⟩

end Samples

theorem sleepQueue_counts_two : ∃ d, Reaches sampleEnv anyRequest twoSleepers d ∧
    InsertsSleeper d.kernel [(3, 1), (4, 1)] 2 15 ∧
    RemovesSleeper d.kernel [(3, 1), (4, 1)] 3 ∧ CountsDown d.kernel [(3, 1), (4, 1)] := by
  obtain ⟨d, reaches, queue, tail⟩ := twoSleepers_reach
  obtain ⟨inserts, removes, counts⟩ := sleepQueue_counts_time queue (by decide)
  refine ⟨d, reaches, inserts 2 15 (by decide) (by decide), removes 3 (by decide), ?_⟩
  refine (counts Nat.one_pos).mpr (Or.inr ?_)
  intro t isTail
  rw [tail, Option.mem_some_iff] at isTail
  exact isTail ▸ (by decide)

theorem sleepQueue_miscounts : ∃ d entries, Reaches sampleEnv anyRequest
    (twoSleepers ++ [syskill sampleFrame 4 5]) d ∧ SleepQueue d.kernel entries ∧
    (∀ entry ∈ timeLeft entries, entry.2 < 2 ^ 31) ∧ DeltaList.Pending entries ∧
    ¬ CountsDown d.kernel entries := by
  obtain ⟨d, reaches, queue, tail⟩ := killedSleeper_reach
  refine ⟨d, _, reaches, queue, by decide, Nat.one_pos, ?_⟩
  rw [queue.countsDown_iff Nat.one_pos, tail]
  rintro (later | apart)
  · exact absurd later (by decide)
  · exact apart 4 rfl (by decide)

theorem killInSleep_second : ∃ d left, Reaches sampleEnv anyRequest twoSleepers d ∧
    killInSleep d.kernel 4 = some left ∧ left.toNat = MILLISECONDS_TICK.toNat * 2 := by
  obtain ⟨d, reaches, queue, _⟩ := twoSleepers_reach
  have second : (4, 2) ∈ timeLeft [((3 : Slot), 1), (4, 1)] := by decide
  obtain ⟨left, reported, correct, _⟩ := killInSleep_time queue second
  exact ⟨d, left, reaches, reported, correct.mpr ⟨by decide, by decide⟩⟩

/-- The third of three is told the same, although it had three. -/
theorem killInSleep_third : ∃ d, Reaches sampleEnv anyRequest
    [sysyield sampleFrame, syscreate sampleFrame 0x5000 0, syscreate sampleFrame 0x5000 0,
      syscreate sampleFrame 0x5000 0, sysyield sampleFrame, sysyield sampleFrame,
      syssleep sampleFrame 10, syssleep sampleFrame 20, syssleep sampleFrame 30] d ∧
    SleepQueue d.kernel [(3, 1), (4, 1), (5, 1)] ∧ (5, 3) ∈ timeLeft [(3, 1), (4, 1), (5, 1)] ∧
    killInSleep d.kernel 5 = some (MILLISECONDS_TICK * 2) := by
  obtain ⟨d, reaches, found⟩ := reaches_of_check sampleEnv anyRequest
    [sysyield sampleFrame, syscreate sampleFrame 0x5000 0, syscreate sampleFrame 0x5000 0,
      syscreate sampleFrame 0x5000 0, sysyield sampleFrame, sysyield sampleFrame,
      syssleep sampleFrame 10, syssleep sampleFrame 20, syssleep sampleFrame 30]
    (fun d => d.kernel.sleepQ = some 3 ∧ d.kernel.link 3 = some 4 ∧ d.kernel.link 4 = some 5 ∧
      d.kernel.link 5 = none ∧ d.kernel.sleepers [3, 4, 5] = [(3, 1), (4, 1), (5, 1)] ∧
      killInSleep d.kernel 5 = some (MILLISECONDS_TICK * 2)) (by decide +kernel)
  obtain ⟨head, second, third, last, entries, reported⟩ := found
  have chain : Chain d.kernel.link d.kernel.sleepQ [3, 4, 5] := ⟨head, second, third, last⟩
  exact ⟨d, reaches, entries ▸ SleepQueue.of_chain chain, by decide, reported⟩

end XerosKernel
