import XerosKernel.ContextFrame

/-!
The frames that `signal` pushes: what it stores below the stack pointer of the process, and
where the process continues.
-/

namespace XerosKernel

/-! Words in memory. -/

theorem storeWord_outside {mem : Memory} {dest value addr : Word} (outside : 4 ≤ addr - dest) :
    storeWord mem dest value addr = mem addr := by
  have first : addr ≠ dest := by bv_omega
  have second : addr ≠ dest + 1 := by bv_omega
  have third : addr ≠ dest + 2 := by bv_omega
  have fourth : addr ≠ dest + 3 := by bv_omega
  simp only [storeWord, storeByte, if_neg first, if_neg second, if_neg third, if_neg fourth]

theorem word_bytes (value : Word) : value.extractLsb' 24 8 ++ value.extractLsb' 16 8 ++
    value.extractLsb' 8 8 ++ value.extractLsb' 0 8 = value := by
  ext i bound
  simp only [BitVec.getElem_append]
  grind

theorem loadWord_storeWord (mem : Memory) (addr value : Word) :
    loadWord (storeWord mem addr value) addr = value := by
  have second : addr + 1 ≠ addr := by bv_omega
  have third : addr + 2 ≠ addr := by bv_omega
  have bytes : loadWord (storeWord mem addr value) addr = value.extractLsb' 24 8 ++
      value.extractLsb' 16 8 ++ value.extractLsb' 8 8 ++ value.extractLsb' 0 8 := by
    simp [loadWord, storeWord, storeByte]
  rw [bytes, word_bytes]

theorem loadWord_storeWord_other {mem : Memory} {dest value addr : Word}
    (behind : 4 ≤ addr - dest) (before : 4 ≤ dest - addr) :
    loadWord (storeWord mem dest value) addr = loadWord mem addr := by
  have second : 4 ≤ addr + 1 - dest := by bv_omega
  have third : 4 ≤ addr + 2 - dest := by bv_omega
  have fourth : 4 ≤ addr + 3 - dest := by bv_omega
  simp only [loadWord, storeWord_outside behind, storeWord_outside second,
    storeWord_outside third, storeWord_outside fourth]

/-! The call of `signal`. -/

/-- What `signal` saves in a frame, with the names of `signal_frame`. -/
structure SavedFrame where
  old_sp : Word
  old_ret : Word
  sigLvl : Word
  deriving DecidableEq, Repr

def interrupted (kernel : Kernel) (p : Slot) : SavedFrame where
  old_sp := (kernel.proctab p).esp
  old_ret := (kernel.proctab p).ret
  sigLvl := (kernel.proctab p).currSigLvl

def Interrupts (kernel : Kernel) (p : Slot) (signum : Fin MAX_SIG) : Prop :=
  (kernel.proctab p).sigtab signum ≠ 0 ∧ (kernel.proctab p).currSigLvl.toInt < (signum.val : Int)

instance (kernel : Kernel) (p : Slot) (signum : Fin MAX_SIG) :
    Decidable (Interrupts kernel p signum) := inferInstanceAs (Decidable (_ ∧ _))

/-- `signal` found `p` with the stack pointer of `saved` and pushed a frame: a signal frame right
below that pointer, a context frame below the signal frame, and nothing else in memory. -/
structure Pushed (saved : SavedFrame) (kernel kernel' : Kernel) (p : Slot)
    (signum : Fin MAX_SIG) : Prop where
  room : (saved.old_sp - sizeofSignalFrame - sizeofContextFrame).toNat + 68 = saved.old_sp.toNat
  context : (kernel'.proctab p).context =
    (saved.old_sp - sizeofSignalFrame - sizeofContextFrame, BitVec.ofNat 32 signum)
  old_sp : loadWord kernel'.mem (saved.old_sp - sizeofSignalFrame + 12) = saved.old_sp
  old_ret : loadWord kernel'.mem (saved.old_sp - sizeofSignalFrame + 16) = saved.old_ret
  sigLvl : loadWord kernel'.mem (saved.old_sp - sizeofSignalFrame + 20) = saved.sigLvl
  outside : ∀ addr : Word, addr.toNat + 68 < saved.old_sp.toNat ∨ saved.old_sp.toNat ≤ addr.toNat →
    kernel'.mem addr = kernel.mem addr

variable {env : Env} {kernel kernel' : Kernel} {p : Slot} {signum : Fin MAX_SIG}

theorem pushFrame_pushed (env : Env) (kernel : Kernel) (p : Slot) (signum : Fin MAX_SIG)
    (room : 68 < (kernel.proctab p).esp.toNat) :
    Pushed (interrupted kernel p) kernel (pushFrame env kernel p signum) p signum where
  room := by
    simp only [interrupted, sizeofSignalFrame, sizeofContextFrame]
    bv_omega
  context := by simp [pushFrame, interrupted, Pcb.context]
  old_sp := by
    simp only [pushFrame, interrupted, Kernel.modify_mem]
    rw [loadWord_storeWord_other (by bv_omega) (by bv_omega),
      loadWord_storeWord_other (by bv_omega) (by bv_omega), loadWord_storeWord]
  old_ret := by
    simp only [pushFrame, interrupted, Kernel.modify_mem]
    rw [loadWord_storeWord_other (by bv_omega) (by bv_omega), loadWord_storeWord]
  sigLvl := by
    simp only [pushFrame, interrupted, Kernel.modify_mem]
    rw [loadWord_storeWord]
  outside := by
    intro addr outside
    simp only [interrupted] at outside
    simp only [pushFrame, Kernel.modify_mem, sizeofSignalFrame, sizeofContextFrame]
    generalize (kernel.proctab p).esp = esp at room outside
    simp (disch := bv_omega) only [storeWord_outside]

theorem signal_pushed (env : Env) (delivers : Interrupts kernel p signum)
    (room : 68 < (kernel.proctab p).esp.toNat) :
    Pushed (interrupted kernel p) kernel (signal env kernel p signum).2 p signum := by
  have saved : interrupted (posted kernel p signum) p = interrupted kernel p := by
    simp [interrupted, posted]
  have esp := posted_same kernel p signum (·.esp) (fun _ _ => rfl) p
  have pushed := pushFrame_pushed env (posted kernel p signum) p signum (by rwa [esp])
  rw [saved] at pushed
  rcases signal_cases env kernel p signum with
    ⟨ignored, _⟩ | ⟨_, ⟨_, same⟩ | ⟨higher, _⟩⟩
  · exact absurd ignored delivers.1
  · rw [same]
    exact ⟨pushed.room, pushed.context, pushed.old_sp, pushed.old_ret, pushed.sigLvl,
      pushed.outside⟩
  · exact absurd delivers.2 higher

theorem signal_contexts (env : Env) (ignored : ¬ Interrupts kernel p signum) :
    SameContexts kernel (signal env kernel p signum).2 := by
  rcases signal_cases env kernel p signum with
    ⟨_, same⟩ | ⟨handled, ⟨lower, _⟩ | ⟨_, same⟩⟩
  · rw [same]
    exact SameContexts.refl
  · exact absurd ⟨handled, lower⟩ ignored
  · rw [same]
    exact posted_same kernel p signum Pcb.context fun _ _ => rfl

end XerosKernel
