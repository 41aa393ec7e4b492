import XerosKernel.KernelCore

/-!
What `memCpy` leaves in memory, byte for byte, also where its two areas overlap.
-/

namespace XerosKernel

variable {mem : Memory} {dest src n addr : Word}

/-- The bytes at `dest` are those at `src`; where the first area begins inside the second one, what
lies in front of it is repeated. -/
def copied (mem : Memory) (dest src n : Word) : Memory := fun addr =>
  if addr - dest < n then
    mem (src + BitVec.ofNat 32 ((addr - dest).toNat % (dest - src).toNat))
  else mem addr

theorem memCpyFrom_eq {count : Nat} (small : count ≤ 2 ^ 32) (addr : Word) :
    memCpyFrom mem dest src count addr =
      if (addr - dest).toNat < count then
        mem (src + BitVec.ofNat 32 ((addr - dest).toNat % (dest - src).toNat))
      else mem addr := by
  induction count generalizing addr with
  | zero => rfl
  | succ count ih =>
      have small' : count ≤ 2 ^ 32 := Nat.le_of_succ_le small
      have bound := (dest - src).isLt
      have wraps : (src + BitVec.ofNat 32 count - dest).toNat =
          if (dest - src).toNat ≤ count then count - (dest - src).toNat
          else count + 2 ^ 32 - (dest - src).toNat := by
        split <;> bv_omega
      by_cases here : addr = dest + BitVec.ofNat 32 count
      · have offset : (addr - dest).toNat = count := by
          subst here
          bv_omega
        have stored : memCpyFrom mem dest src (count + 1) addr =
            memCpyFrom mem dest src count (src + BitVec.ofNat 32 count) := by
          rw [memCpyFrom, storeByte, if_pos here]
        rw [stored, ih small', offset, if_pos (Nat.lt_succ_self count)]
        by_cases behind : (dest - src).toNat ≤ count
        · rw [if_pos behind] at wraps
          by_cases same : (dest - src).toNat = 0
          · rw [same, Nat.sub_zero] at wraps
            rw [wraps, if_neg (Nat.lt_irrefl count), same, Nat.mod_zero]
          · have earlier : count - (dest - src).toNat < count := by omega
            rw [wraps, if_pos earlier, ← Nat.mod_eq_sub_mod behind]
        · have later : ¬ count + 2 ^ 32 - (dest - src).toNat < count := by omega
          have first : count % (dest - src).toNat = count :=
            Nat.mod_eq_of_lt (Nat.lt_of_not_le behind)
          rw [if_neg behind] at wraps
          rw [wraps, if_neg later, first]
      · have offset : (addr - dest).toNat ≠ count := by
          intro same
          exact here (by bv_omega)
        have kept : memCpyFrom mem dest src (count + 1) addr =
            memCpyFrom mem dest src count addr := by
          rw [memCpyFrom, storeByte, if_neg here]
        have same : (addr - dest).toNat < count + 1 ↔ (addr - dest).toNat < count := by omega
        rw [kept, ih small']
        simp only [same]

theorem memCpy_eq (mem : Memory) (dest src n : Word) :
    memCpy mem dest src n = copied mem dest src n := by
  funext addr
  have small : n.toNat ≤ 2 ^ 32 := Nat.le_of_lt n.isLt
  rw [memCpy, memCpyFrom_eq small, copied]
  rfl

theorem copied_apart (apart : n ≤ dest - src) : copied mem dest src n addr =
    if addr - dest < n then mem (src + (addr - dest)) else mem addr := by
  unfold copied
  by_cases inside : addr - dest < n
  · have before : (addr - dest).toNat < (dest - src).toNat := by bv_omega
    rw [if_pos inside, if_pos inside, Nat.mod_eq_of_lt before, BitVec.ofNat_toNat,
      BitVec.setWidth_eq]
  · rw [if_neg inside, if_neg inside]

theorem copied_zero (mem : Memory) (dest src : Word) : copied mem dest src 0 = mem := by
  funext addr
  exact if_neg (by bv_omega)

end XerosKernel
