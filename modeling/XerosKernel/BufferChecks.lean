import XerosKernel.Runs

/-!
The checks on the buffers that processes hand to the kernel. `di_read` and `di_write` look at
the first address of a buffer and at no other, `getCPUtimes` at the first one and, modulo
2 ^ 32, at the one behind the last.
-/

namespace XerosKernel

def InMemory (env : Env) (addr : Nat) : Prop :=
  ¬ (env.HOLESTART.toNat ≤ addr ∧ addr ≤ env.HOLEEND.toNat) ∧ addr ≤ env.maxaddr.toNat

def BufferInMemory (env : Env) (buff : Word) (len : Nat) : Prop :=
  ∀ i < len, InMemory env (buff.toNat + i)

/-- The hole of a PC lies inside the memory. -/
structure HoleInside (env : Env) : Prop where
  start : 0 < env.HOLESTART.toNat
  nonempty : env.HOLESTART.toNat < env.HOLEEND.toNat
  below : env.HOLEEND.toNat < env.maxaddr.toNat
  bound : env.maxaddr.toNat < 2 ^ 32 - 1

def CallsDevice (env : Env) (kernel : Kernel) (p : Slot) (fd buff : Word) : Prop :=
  ¬ invalidFd kernel p fd ∧ ¬ invalidBuffer env buff

instance (env : Env) (kernel : Kernel) (p : Slot) (fd buff : Word) :
    Decidable (CallsDevice env kernel p fd buff) := inferInstanceAs (Decidable (_ ∧ _))

/-- The checks of `getCPUtimes` let it fill the table. -/
def FillsTable (env : Env) (ps : Word) : Prop :=
  ¬ (env.HOLESTART ≤ ps ∧ ps ≤ env.HOLEEND) ∧ ¬ env.maxaddr < ps + sizeofProcessStatuses

instance (env : Env) (ps : Word) : Decidable (FillsTable env ps) :=
  inferInstanceAs (Decidable (_ ∧ _))

variable {env : Env} {kernel : Kernel} {p : Slot} {fd buff bufflen ps : Word}

theorem diRead_eq : diRead env kernel p fd buff bufflen =
    if CallsDevice env kernel p fd buff then
      (deviceOf kernel p fd).bind fun device => device.dvread env kernel p fd buff bufflen
    else some (-1, kernel) := by
  unfold diRead
  by_cases validFd : invalidFd kernel p fd
  · simp [CallsDevice, validFd]
  · by_cases validBuffer : invalidBuffer env buff <;> simp [CallsDevice, validFd, validBuffer]

theorem diWrite_eq : diWrite env kernel p fd buff bufflen =
    if CallsDevice env kernel p fd buff then
      (deviceOf kernel p fd).map fun device => device.dvwrite kernel p fd buff bufflen
    else some (-1, kernel) := by
  unfold diWrite
  by_cases validFd : invalidFd kernel p fd
  · simp [CallsDevice, validFd]
  · by_cases validBuffer : invalidBuffer env buff <;> simp [CallsDevice, validFd, validBuffer]

theorem getCPUtimes_rejected (rejected : ¬ FillsTable env ps) :
    (getCPUtimes env kernel p ps).2 = kernel := by
  unfold getCPUtimes
  by_cases hole : env.HOLESTART ≤ ps ∧ ps ≤ env.HOLEEND
  · rw [if_pos hole]
  · by_cases high : env.maxaddr < ps + sizeofProcessStatuses
    · rw [if_neg hole, if_pos high]
    · exact absurd ⟨hole, high⟩ rejected

theorem bufferInMemory_iff (inside : HoleInside env) (buff : Word) (len : Nat) :
    BufferInMemory env buff len ↔
      len = 0 ∨ buff.toNat + len ≤ env.HOLESTART.toNat ∨
        env.HOLEEND.toNat < buff.toNat ∧ buff.toNat + len ≤ env.maxaddr.toNat + 1 := by
  obtain ⟨start, nonempty, below, bound⟩ := inside
  constructor
  · intro exists'
    by_cases empty : len = 0
    · exact Or.inl empty
    · have first := exists' 0 (Nat.pos_of_ne_zero empty)
      have last := exists' (len - 1) (by omega)
      simp only [InMemory] at first last
      by_cases front : buff.toNat < env.HOLESTART.toNat
      · have crosses : ¬ env.HOLESTART.toNat < buff.toNat + len := by
          intro crosses
          have middle := exists' (env.HOLESTART.toNat - buff.toNat) (by omega)
          simp only [InMemory] at middle
          omega
        exact Or.inr (Or.inl (by omega))
      · exact Or.inr (Or.inr (by omega))
  · intro fits i inside
    simp only [InMemory]
    omega

/-- The buffers that the checks let through exist exactly if they neither reach into the hole
nor beyond the end of the memory; the table of `getCPUtimes` exists exactly if its end does not
wrap around and the hole is not inside it. -/
theorem buffer_checks {env : Env} (inside : HoleInside env) (kernel : Kernel) (p : Slot)
    (fd buff bufflen ps : Word) :
    ((CallsDevice env kernel p fd buff → 0 ≤ bufflen.toInt →
        BufferInMemory env buff bufflen.toNat) ↔
      (CallsDevice env kernel p fd buff → 0 < bufflen.toInt →
        (buff < env.HOLESTART → buff.toNat + bufflen.toNat ≤ env.HOLESTART.toNat) ∧
        (env.HOLEEND < buff → buff.toNat + bufflen.toNat ≤ env.maxaddr.toNat + 1))) ∧
    ((FillsTable env ps → BufferInMemory env ps sizeofProcessStatuses.toNat) ↔
      (FillsTable env ps → ps.toNat + sizeofProcessStatuses.toNat < 2 ^ 32 ∧
        (ps < env.HOLESTART →
          ps.toNat + sizeofProcessStatuses.toNat ≤ env.HOLESTART.toNat))) := by
  have nonempty := inside.nonempty
  have below := inside.below
  have bound := inside.bound
  constructor
  · refine imp_congr_right fun calls => ?_
    have valid := calls.2
    simp only [invalidBuffer, BitVec.le_def, BitVec.lt_def] at valid
    have sign := BitVec.toInt_eq_toNat_cond bufflen
    have small := bufflen.isLt
    rw [bufferInMemory_iff inside, BitVec.lt_def, BitVec.lt_def]
    split at sign
    · rw [sign]
      omega
    · exact iff_of_true (fun nonneg => by omega) fun positive => by omega
  · refine imp_congr_right fun fills => ?_
    have accepted := fills
    have size : sizeofProcessStatuses.toNat = 772 := rfl
    simp only [FillsTable, BitVec.le_def, BitVec.lt_def, BitVec.toNat_add, size] at accepted
    rw [bufferInMemory_iff inside, BitVec.lt_def, size]
    omega

theorem sampleEnv_holeInside : HoleInside sampleEnv := ⟨by decide, by decide, by decide, by decide⟩

def zeroReader : Kernel :=
  { dispatchinit sampleEnv (kmeminit sampleEnv) with
    proctab := fun _ => { fdt := fun _ => { device := some .zero, status := .opened } } }

theorem buffer_checks_byte : CallsDevice sampleEnv zeroReader 3 0 0x9FFFF ∧
    BufferInMemory sampleEnv 0x9FFFF 1 := by
  have calls : CallsDevice sampleEnv zeroReader 3 0 0x9FFFF := by decide
  have checks := (buffer_checks sampleEnv_holeInside zeroReader 3 0 0x9FFFF 1 0).1
  exact ⟨calls, checks.mpr (fun _ _ => by decide) calls (by decide)⟩

/-- The third process opens the zero device and reads two bytes from the last byte in front of
the hole on: the device writes into the hole. The table of `getCPUtimes` reaches as far. -/
theorem buffer_checks_broken : ∃ d, Reaches sampleEnv anyRequest
      (creatorRun ++ [sysopen sampleFrame 0]) d ∧
    CallsDevice sampleEnv d.kernel 3 0 0x9FFFF ∧ ¬ BufferInMemory sampleEnv 0x9FFFF 2 ∧
    FillsTable sampleEnv 0x9FFFF ∧
    ¬ BufferInMemory sampleEnv 0x9FFFF sizeofProcessStatuses.toNat := by
  obtain ⟨d, reaches, calls⟩ := reaches_of_check sampleEnv anyRequest
    (creatorRun ++ [sysopen sampleFrame 0])
    (fun d => CallsDevice sampleEnv d.kernel 3 0 0x9FFFF) (by decide +kernel)
  have hole : ¬ InMemory sampleEnv (BitVec.toNat (0x9FFFF : Word) + 1) := by
    simp only [InMemory]
    decide
  exact ⟨d, reaches, calls, fun all => hole (all 1 (by decide)), by decide,
    fun all => hole (all 1 (by decide))⟩

end XerosKernel
