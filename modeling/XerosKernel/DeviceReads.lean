import XerosKernel.BufferChecks
import XerosKernel.DescriptorTable

/-!
What a read of a device writes. The zero device fills the buffer, the random device fills it in
steps of four bytes, and the keyboard stores a character without a look at the length.
-/

namespace XerosKernel

variable {env : Env} {device : Device} {kernel kernel' : Kernel} {p : Slot}
  {fd buff bufflen n : Word}

/-- A read that returns `n` writes every byte of `[buff, buff + n)` and no other one: whatever
memory holds before it, these bytes are the same afterwards. -/
def WritesExactly (env : Env) (device : Device) (kernel : Kernel) (p : Slot)
    (fd buff bufflen n : Word) : Prop :=
  ∃ bytes : Memory, ∀ mem,
    (device.dvread env { kernel with mem := mem } p fd buff bufflen).map (fun read => read.2.mem) =
      some fun addr => if addr - buff < n then bytes addr else mem addr

def KeepsKernel (p : Slot) (fd : Word) (kernel kernel' : Kernel) : Prop :=
  ∃ kbd seed write, kernel' = ({ kernel with
    mem := kernel'.mem, kbd := kbd, seed := seed } : Kernel).writeFdt p (fdIndex fd) write

/-- The read returns; what it returns is within the request, and so is what it writes. -/
def ReadsInside (env : Env) (device : Device) (kernel : Kernel) (p : Slot)
    (fd buff bufflen : Word) : Prop :=
  ∃ n kernel', device.dvread env kernel p fd buff bufflen = some (n, kernel') ∧
    (0 ≤ n.toInt →
      n.toInt ≤ bufflen.toInt ∧ WritesExactly env device kernel p fd buff bufflen n) ∧
    (device ≠ .kbd → n = bufflen)

def ReadsApart (env : Env) (device : Device) (kernel : Kernel) (p : Slot)
    (fd buff bufflen : Word) : Prop :=
  ReadsInside env device kernel p fd buff bufflen ∧
    ∀ n kernel', device.dvread env kernel p fd buff bufflen = some (n, kernel') → 0 ≤ n.toInt →
      KeepsKernel p fd kernel kernel'

/-- The request is one that the device can keep to: a multiple of the four bytes that the random
device writes at once, and room for the one character that ends the input of the keyboard. -/
def RequestFits (device : Device) (kernel : Kernel) (bufflen : Word) : Prop :=
  (device = .rand → bufflen.toNat % 4 = 0) ∧
    (device = .kbd → atEof kernel.kbd → 1 ≤ bufflen.toInt)

def QueuedTwice (kernel : Kernel) (p : Slot) : Prop :=
  kernel.tail = some p ∧ (kernel.proctab p).next = some p ∧ (kernel.proctab p).state = .ready

/-! The zero device and the random device. -/

theorem writeFdt_id (kernel : Kernel) (p : Slot) (fd : Fin MAX_FDT) :
    kernel.writeFdt p fd id = kernel := by
  simp only [Kernel.writeFdt, Kernel.modify, id_eq, ite_self]

theorem zeroRead_apart (env : Env) (kernel : Kernel) (p : Slot) (fd buff bufflen : Word) :
    ReadsApart env .zero kernel p fd buff bufflen := by
  refine ⟨⟨bufflen, _, rfl, fun _ => ⟨Int.le_refl _, fun _ => 0, fun mem => rfl⟩, fun _ => rfl⟩, ?_⟩
  intro n kernel' read _
  cases read
  exact ⟨kernel.kbd, kernel.seed, fun fdStruct => { fdStruct with dataBuffer := 0 }, rfl⟩

theorem randReadLoop_fills {rounds fuel : Nat} (env : Env) (kernel : Kernel) (buff : Word)
    {i : Word} (bytesRead : Word) (enough : rounds < fuel)
    (small : bufflen.toNat < 2 ^ 31) (ends : i.toNat + 4 * rounds = bufflen.toNat) :
    ∃ (bytes : Memory) (seed : Word), ∀ mem,
      randReadLoop env buff bufflen fuel { kernel with mem := mem } i bytesRead =
        some ({ kernel with
          mem := fun addr =>
            if i ≤ addr - buff ∧ addr - buff < bufflen then bytes addr else mem addr
          seed := seed }, bufflen, bytesRead + (bufflen - i)) := by
  induction rounds generalizing kernel fuel i bytesRead with
  | zero =>
      obtain ⟨fuel, rfl⟩ := Nat.exists_eq_succ_of_ne_zero (Nat.ne_of_gt enough)
      obtain rfl : i = bufflen := BitVec.eq_of_toNat_eq (by omega)
      refine ⟨fun _ => 0, kernel.seed, fun mem => ?_⟩
      have untouched : ∀ addr, ¬ (i ≤ addr - buff ∧ addr - buff < i) :=
        fun addr inside => BitVec.not_lt.mpr inside.1 inside.2
      have full : ¬ i.slt i = true := by simp [BitVec.slt]
      simp only [randReadLoop, if_neg full, if_neg (untouched _), BitVec.sub_self, BitVec.add_zero]
  | succ rounds ih =>
      obtain ⟨fuel, rfl⟩ := Nat.exists_eq_succ_of_ne_zero (Nat.ne_of_gt (Nat.zero_lt_of_lt enough))
      have more : i.slt bufflen = true := by
        rw [BitVec.slt_iff_toInt_lt, BitVec.toInt_eq_toNat_of_lt, BitVec.toInt_eq_toNat_of_lt]
        · omega
        · omega
        · omega
      have counted : (i + 4).toNat = i.toNat + 4 := by bv_omega
      have enough' : rounds < fuel := Nat.lt_of_succ_lt_succ enough
      have ends' : (i + 4).toNat + 4 * rounds = bufflen.toNat := by omega
      obtain ⟨bytes, seed, rest⟩ :=
        ih { kernel with seed := (env.rand kernel.seed).2 } (bytesRead + 4) enough' ends'
      refine ⟨fun addr => if i + 4 ≤ addr - buff then bytes addr
        else (((env.rand kernel.seed).1.srem 255).truncate 8), seed, fun mem => ?_⟩
      have sum : bytesRead + 4 + (bufflen - (i + 4)) = bytesRead + (bufflen - i) := by bv_omega
      rw [randReadLoop, if_pos more, randFill, rest, sum]
      congr 3
      funext addr
      have step : addr - (buff + i) < 4 ↔ i ≤ addr - buff ∧ ¬ i + 4 ≤ addr - buff := by
        bv_omega
      have later : i + 4 ≤ addr - buff → i ≤ addr - buff := by bv_omega
      have inside : ¬ i + 4 ≤ addr - buff → i ≤ addr - buff → addr - buff < bufflen := by bv_omega
      simp only [memset, step]
      by_cases behind : i + 4 ≤ addr - buff
      · simp only [behind, later behind, not_true_eq_false, and_false, true_and, if_false, if_true]
      · by_cases reached : i ≤ addr - buff
        · simp only [behind, reached, inside behind reached, not_false_eq_true, false_and, and_self,
            if_false, if_true]
        · simp only [behind, reached, false_and, if_false]

theorem randRead_words (env : Env) (kernel : Kernel) (buff : Word) (nonneg : 0 ≤ bufflen.toInt)
    (words : bufflen.toNat % 4 = 0) :
    ∃ (bytes : Memory) (seed : Word), ∀ mem,
      randRead env { kernel with mem := mem } buff bufflen = some (bufflen, { kernel with
        mem := fun addr => if addr - buff < bufflen then bytes addr else mem addr
        seed := seed }) := by
  have small : bufflen.toNat < 2 ^ 31 := by
    have value := toInt_toNat nonneg
    have limit := BitVec.toInt_lt (x := bufflen)
    omega
  have rounds : bufflen.toNat / 4 < 2 ^ 29 + 1 := by omega
  have ends : (0 : Word).toNat + 4 * (bufflen.toNat / 4) = bufflen.toNat := by
    rw [show (0 : Word).toNat = 0 from rfl]
    omega
  obtain ⟨bytes, seed, looped⟩ := randReadLoop_fills env kernel buff 0 rounds small ends
  refine ⟨bytes, seed, fun mem => ?_⟩
  have first : ∀ addr, 0 ≤ addr - buff := fun addr => BitVec.le_def.mpr (Nat.zero_le _)
  have full : ¬ bufflen.slt bufflen = true := by simp [BitVec.slt]
  have total : 0 + (bufflen - 0) = bufflen := by bv_omega
  rw [randRead, looped mem]
  simp only [if_neg full, first, true_and, total]

theorem randRead_inside (env : Env) (kernel : Kernel) (p : Slot) (fd buff : Word)
    (nonneg : 0 ≤ bufflen.toInt) :
    ReadsInside env .rand kernel p fd buff bufflen ↔ bufflen.toNat % 4 = 0 := by
  constructor
  · rintro ⟨n, kernel', answer, _, whole⟩
    obtain ⟨_, counted⟩ := randRead_spec answer
    rw [whole (by simp)] at counted
    exact counted
  · intro words
    obtain ⟨bytes, seed, filled⟩ := randRead_words env kernel buff nonneg words
    refine ⟨bufflen, _, filled kernel.mem, fun _ => ⟨Int.le_refl _, bytes, fun mem => ?_⟩,
      fun _ => rfl⟩
    rw [Device.dvread, filled mem]
    rfl

/-! The keyboard. -/

theorem kbdRead_atEof {i : Fin 4} (kernel : Kernel) (p : Slot) (fd buff : Word)
    (first : firstUnread kernel.kbd = some i)
    (eof : (kernel.kbd.kbdbuff i).signExtend 32 = kernel.kbd.eof) :
    kbdRead kernel p fd buff = (1, ready (kbdClose (takeChar kernel buff i) p fd).2 p) := by
  rw [kbdRead_eq, first]
  simp only [if_pos eof]

theorem kbdRead_return {i : Fin 4} (kernel : Kernel) (p : Slot) (fd buff : Word)
    (first : firstUnread kernel.kbd = some i)
    (other : (kernel.kbd.kbdbuff i).signExtend 32 ≠ kernel.kbd.eof)
    (isReturn : kernel.kbd.kbdbuff i = 0x0D) : kbdRead kernel p fd buff = (0, kernel) := by
  rw [kbdRead_eq, first]
  simp only [if_neg other, if_pos isReturn]

theorem kbdRead_returned (returned : 0 ≤ (kbdRead kernel p fd buff).1.toInt) :
    ∃ i, firstUnread kernel.kbd = some i ∧
      ((kernel.kbd.kbdbuff i).signExtend 32 = kernel.kbd.eof ∨
        (kernel.kbd.kbdbuff i).signExtend 32 ≠ kernel.kbd.eof ∧ kernel.kbd.kbdbuff i = 0x0D) := by
  rw [kbdRead_eq] at returned
  cases found : firstUnread kernel.kbd with
  | none =>
      rw [found] at returned
      have refused : (0 : Int) ≤ (-1 : Word).toInt := returned
      exact absurd refused (by decide)
  | some i =>
      rw [found] at returned
      by_cases eof : (kernel.kbd.kbdbuff i).signExtend 32 = kernel.kbd.eof
      · exact ⟨i, rfl, Or.inl eof⟩
      · by_cases isReturn : kernel.kbd.kbdbuff i = 0x0D
        · exact ⟨i, rfl, Or.inr ⟨eof, isReturn⟩⟩
        · simp only [if_neg eof, if_neg isReturn] at returned
          exact absurd returned (by decide)

theorem kbdRead_inside (env : Env) (kernel : Kernel) (p : Slot) (fd buff : Word)
    (nonneg : 0 ≤ bufflen.toInt) :
    ReadsInside env .kbd kernel p fd buff bufflen ↔ (atEof kernel.kbd → 1 ≤ bufflen.toInt) := by
  constructor
  · rintro ⟨n, kernel', answer, inside, _⟩ ⟨i, first, eof⟩
    rw [Device.dvread, kbdRead_atEof kernel p fd buff first eof] at answer
    cases answer
    exact (inside (by decide)).1
  · intro room
    refine ⟨(kbdRead kernel p fd buff).1, (kbdRead kernel p fd buff).2, rfl, fun returned => ?_,
      fun other => absurd rfl other⟩
    obtain ⟨i, first, eof | ⟨other, isReturn⟩⟩ := kbdRead_returned returned
    · rw [kbdRead_atEof kernel p fd buff first eof]
      refine ⟨room ⟨i, first, eof⟩, fun _ => kernel.kbd.kbdbuff i, fun mem => ?_⟩
      have one : ∀ addr, addr - buff < 1 ↔ addr = buff := by
        intro addr
        bv_omega
      rw [Device.dvread, kbdRead_atEof { kernel with mem := mem } p fd buff first eof]
      simp only [Option.map_some, ready_mem, one]
      rfl
    · rw [kbdRead_return kernel p fd buff first other isReturn]
      refine ⟨nonneg, fun _ => 0, fun mem => ?_⟩
      have nothing : ∀ addr, ¬ addr - buff < 0 := fun addr => by bv_omega
      rw [Device.dvread, kbdRead_return { kernel with mem := mem } p fd buff first other isReturn]
      simp only [Option.map_some, nothing, if_false]

theorem ready_queuedTwice (queued : QueuedTwice kernel p) : ready kernel p = kernel := by
  obtain ⟨tail, next, state⟩ := queued
  have table : (ready kernel p).proctab = kernel.proctab := by
    funext i
    rw [ready_proctab, tail]
    by_cases isP : i = p
    · subst isP
      rw [if_pos rfl, if_pos rfl, ← next, ← state]
    · rw [if_neg fun same => isP (Option.some.inj same).symm, if_neg isP, if_neg isP]
  have front : (ready kernel p).head = kernel.head := by
    rw [ready_head, tail, if_neg (Option.some_ne_none p)]
  calc ready kernel p
    _ = { kernel with
          proctab := (ready kernel p).proctab
          head := (ready kernel p).head
          tail := some p } := by
        simp only [ready, Kernel.modify_tail, tail]
        rfl
    _ = kernel := by rw [table, front, ← tail]

theorem kbdRead_keeps (kernel : Kernel) (p : Slot) (fd buff : Word) :
    (0 ≤ (kbdRead kernel p fd buff).1.toInt →
      KeepsKernel p fd kernel (kbdRead kernel p fd buff).2) ↔
        (atEof kernel.kbd → QueuedTwice kernel p) := by
  constructor
  · rintro keeps ⟨i, first, eof⟩
    rw [kbdRead_atEof kernel p fd buff first eof] at keeps
    have positive : (0 : Int) ≤ (1 : Word).toInt := by decide
    obtain ⟨kbd, seed, write, same⟩ := keeps positive
    have tail : kernel.tail = some p := (congrArg Kernel.tail same).symm
    have next := congrArg (fun kernel' : Kernel => (kernel'.proctab p).next) same
    have state := congrArg (fun kernel' : Kernel => (kernel'.proctab p).state) same
    have last : (kbdClose (takeChar kernel buff i) p fd).2.tail = some p := tail
    simp only [ready_proctab, last, Kernel.writeFdt, Kernel.modify_proctab, if_true] at next state
    exact ⟨tail, next.symm, state.symm⟩
  · intro queued returned
    obtain ⟨i, first, eof | ⟨other, isReturn⟩⟩ := kbdRead_returned returned
    · obtain ⟨tail, next, state⟩ := queued ⟨i, first, eof⟩
      have queued' : QueuedTwice (kbdClose (takeChar kernel buff i) p fd).2 p := by
        refine ⟨tail, ?_, ?_⟩
        · simpa [kbdClose, closeDescriptor, Kernel.writeFdt, takeChar] using next
        · simpa [kbdClose, closeDescriptor, Kernel.writeFdt, takeChar] using state
      rw [kbdRead_atEof kernel p fd buff first eof, ready_queuedTwice queued']
      exact ⟨{ kernel.kbd.clearSlot i with echo := true, irqEnabled := false }, kernel.seed,
        fun fdStruct => { fdStruct with device := none, status := .close }, rfl⟩
    · rw [kbdRead_return kernel p fd buff first other isReturn]
      exact ⟨kernel.kbd, kernel.seed, id, (writeFdt_id kernel p _).symm⟩

/-! All devices. -/

/-- A read stays inside the buffer exactly if the random device gets a multiple of four bytes to
fill and the keyboard, at the end of its input, one byte at least. At the end of its input the
keyboard changes more than a driver should: it puts its reader on the ready queue. -/
theorem reads_inside (env : Env) (device : Device) (kernel : Kernel) (p : Slot)
    (fd buff bufflen : Word) (nonneg : 0 ≤ bufflen.toInt) :
    (ReadsInside env device kernel p fd buff bufflen ↔ RequestFits device kernel bufflen) ∧
    (ReadsApart env device kernel p fd buff bufflen ↔ RequestFits device kernel bufflen ∧
      (device = .kbd → atEof kernel.kbd → QueuedTwice kernel p)) := by
  cases device with
  | zero =>
      have apart := zeroRead_apart env kernel p fd buff bufflen
      have fits : RequestFits .zero kernel bufflen := ⟨by simp, by simp⟩
      exact ⟨iff_of_true apart.1 fits, iff_of_true apart ⟨fits, by simp⟩⟩
  | rand =>
      have inside := randRead_inside env kernel p fd buff nonneg
      have fits : RequestFits .rand kernel bufflen ↔ bufflen.toNat % 4 = 0 := by
        simp [RequestFits]
      refine ⟨inside.trans fits.symm, ?_, ?_⟩
      · rintro ⟨reads, _⟩
        exact ⟨fits.mpr (inside.mp reads), by simp⟩
      · rintro ⟨words, _⟩
        refine ⟨inside.mpr (fits.mp words), fun n kernel' answer _ => ?_⟩
        obtain ⟨bytes, seed, filled⟩ := randRead_words env kernel buff nonneg (fits.mp words)
        rw [Device.dvread, filled kernel.mem] at answer
        cases answer
        exact ⟨kernel.kbd, seed, id, (writeFdt_id _ p _).symm⟩
  | kbd =>
      have inside := kbdRead_inside env kernel p fd buff nonneg
      have keeps := kbdRead_keeps kernel p fd buff
      have fits : RequestFits .kbd kernel bufflen ↔ (atEof kernel.kbd → 1 ≤ bufflen.toInt) := by
        simp [RequestFits]
      refine ⟨inside.trans fits.symm, ?_, ?_⟩
      · rintro ⟨reads, apart⟩
        exact ⟨fits.mpr (inside.mp reads), fun _ => keeps.mp (apart _ _ rfl)⟩
      · rintro ⟨room, queued⟩
        refine ⟨inside.mpr (fits.mp room), fun n kernel' answer returned => ?_⟩
        have read : kbdRead kernel p fd buff = (n, kernel') := Option.some.inj answer
        rw [read] at keeps
        exact keeps.mpr (queued rfl) returned

theorem reads_inside_words : ReadsInside sampleEnv .rand zeroReader 3 0 0x50000 8 := by
  have words : RequestFits .rand zeroReader 8 := ⟨fun _ => by decide, by simp⟩
  exact (reads_inside sampleEnv .rand zeroReader 3 0 0x50000 8 (by decide)).1.mpr words

/-- A read of 5 random bytes writes 8 bytes and returns 8. A read of no bytes from a keyboard at the
end of its input writes one and returns 1. -/
theorem reads_inside_broken :
    (∃ d, Reaches sampleEnv anyRequest (creatorRun ++ [sysopen sampleFrame 1]) d ∧
      deviceOf d.kernel d.current 0 = some .rand ∧
      (∃ read ∈ randRead sampleEnv d.kernel 0x50000 5,
        read.1 = 8 ∧ d.kernel.mem 0x50007 = 0 ∧ read.2.mem 0x50007 = 2) ∧
      ¬ ReadsInside sampleEnv .rand d.kernel d.current 0 0x50000 5) ∧
    (∃ d, Reaches sampleEnv anyRequest
        (creatorRun ++ [sysopen sampleFrame 2, keyTrap 0x1e]) d ∧
      deviceOf d.kernel d.current 0 = some .kbd ∧
      (kbdRead d.kernel d.current 0 0x50000).1 = 1 ∧
      ¬ ReadsInside sampleEnv .kbd d.kernel d.current 0 0x50000 0) := by
  constructor
  · obtain ⟨d, reaches, opened, read⟩ := reaches_of_check sampleEnv anyRequest
      (creatorRun ++ [sysopen sampleFrame 1])
      (fun d => deviceOf d.kernel d.current 0 = some .rand ∧
        ∃ read ∈ randRead sampleEnv d.kernel 0x50000 5,
          read.1 = 8 ∧ d.kernel.mem 0x50007 = 0 ∧ read.2.mem 0x50007 = 2) (by decide +kernel)
    refine ⟨d, reaches, opened, read, fun inside => ?_⟩
    have words := (randRead_inside sampleEnv d.kernel d.current 0 0x50000 (by decide)).mp inside
    exact absurd words (by decide)
  · obtain ⟨d, reaches, opened, read, eof⟩ := reaches_of_check sampleEnv anyRequest
      (creatorRun ++ [sysopen sampleFrame 2, keyTrap 0x1e])
      (fun d => deviceOf d.kernel d.current 0 = some .kbd ∧
        (kbdRead d.kernel d.current 0 0x50000).1 = 1 ∧ atEof d.kernel.kbd) (by decide +kernel)
    refine ⟨d, reaches, opened, read, fun inside => ?_⟩
    have room := (kbdRead_inside sampleEnv d.kernel d.current 0 0x50000 (by decide)).mp inside eof
    exact absurd room (by decide)

end XerosKernel
