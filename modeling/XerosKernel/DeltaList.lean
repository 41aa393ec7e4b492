import Mathlib.Algebra.GroupWithZero.Nat
import Mathlib.Data.List.Nodup

/-!
Delta lists: timers in the order in which they expire, each stored as the difference to
the one before it. `deadlines` gives the times the differences stand for; inserting,
expiring and deleting act on these times as on a sorted list of deadlines.
-/

namespace DeltaList

variable {α : Type}

/-- The time of every entry, counted from `base`. -/
def deadlines (base : Nat) : List (α × Nat) → List (α × Nat)
  | [] => []
  | (key, diff) :: rest => (key, base + diff) :: deadlines (base + diff) rest

def insert (time : Nat) (key : α) : List (α × Nat) → List (α × Nat)
  | [] => [(key, time)]
  | (other, diff) :: rest =>
      if time < diff then (key, time) :: (other, diff - time) :: rest
      else (other, diff) :: insert (time - diff) key rest

def growFirst (diff : Nat) : List (α × Nat) → List (α × Nat)
  | [] => []
  | (key, first) :: rest => (key, first + diff) :: rest

/-- The entry behind the deleted one takes over its difference. -/
def delete [DecidableEq α] (key : α) : List (α × Nat) → List (α × Nat)
  | [] => []
  | (other, diff) :: rest =>
      if other = key then growFirst diff rest else (other, diff) :: delete key rest

/-- The entries in front whose difference is used up, and the others. -/
def expire : List (α × Nat) → List α × List (α × Nat)
  | [] => ([], [])
  | (key, diff) :: rest =>
      if diff = 0 then (key :: (expire rest).1, (expire rest).2) else ([], (key, diff) :: rest)

def tick : List (α × Nat) → List α × List (α × Nat)
  | [] => ([], [])
  | (key, diff) :: rest => expire ((key, diff - 1) :: rest)

/-- The difference of the first entry is not used up, so every deadline lies ahead. -/
def Pending : List (α × Nat) → Prop
  | [] => True
  | (_, diff) :: _ => 0 < diff

@[simp] theorem deadlines_nil (base : Nat) : deadlines base ([] : List (α × Nat)) = [] := rfl

@[simp] theorem deadlines_cons (base diff : Nat) (key : α) (rest : List (α × Nat)) :
    deadlines base ((key, diff) :: rest) =
      (key, base + diff) :: deadlines (base + diff) rest := rfl

theorem insert_cons (time diff : Nat) (key other : α) (rest : List (α × Nat)) :
    insert time key ((other, diff) :: rest) =
      if time < diff then (key, time) :: (other, diff - time) :: rest
      else (other, diff) :: insert (time - diff) key rest := rfl

theorem delete_cons [DecidableEq α] (key other : α) (diff : Nat) (rest : List (α × Nat)) :
    delete key ((other, diff) :: rest) =
      if other = key then growFirst diff rest else (other, diff) :: delete key rest := rfl

theorem expire_cons (key : α) (diff : Nat) (rest : List (α × Nat)) :
    expire ((key, diff) :: rest) =
      if diff = 0 then (key :: (expire rest).1, (expire rest).2)
      else ([], (key, diff) :: rest) := rfl

theorem deadlines_append (base : Nat) (front back : List (α × Nat)) :
    deadlines base (front ++ back) =
      deadlines base front ++ deadlines (base + (front.map Prod.snd).sum) back := by
  induction front generalizing base with
  | nil => rfl
  | cons entry front ih =>
      obtain ⟨key, diff⟩ := entry
      simp [ih, Nat.add_assoc]

theorem deadline_split {base time : Nat} {key : α} {entries : List (α × Nat)}
    (member : (key, time) ∈ deadlines base entries) :
    ∃ front diff back, entries = front ++ (key, diff) :: back ∧
      time = base + (front.map Prod.snd).sum + diff := by
  induction entries generalizing base with
  | nil => simp at member
  | cons entry rest ih =>
      obtain ⟨other, first⟩ := entry
      rw [deadlines_cons, List.mem_cons, Prod.mk.injEq] at member
      rcases member with ⟨rfl, same⟩ | later
      · exact ⟨[], first, rest, rfl, by simpa using same⟩
      · obtain ⟨front, diff, back, split, sum⟩ := ih later
        refine ⟨(other, first) :: front, diff, back, by rw [split, List.cons_append], ?_⟩
        rw [List.map_cons, List.sum_cons]
        omega

theorem base_le_deadline {base : Nat} {entries : List (α × Nat)} {key : α} {time : Nat}
    (member : (key, time) ∈ deadlines base entries) : base ≤ time := by
  induction entries generalizing base with
  | nil => simp at member
  | cons entry rest ih =>
      obtain ⟨other, diff⟩ := entry
      simp only [deadlines_cons, List.mem_cons, Prod.mk.injEq] at member
      rcases member with ⟨_, same⟩ | later
      · omega
      · have bound := ih later
        omega

theorem mem_deadlines_insert {base time : Nat} {key : α} {entries : List (α × Nat)}
    {entry : α × Nat} : entry ∈ deadlines base (insert time key entries) ↔
      entry = (key, base + time) ∨ entry ∈ deadlines base entries := by
  induction entries generalizing base time with
  | nil => exact List.mem_cons
  | cons first rest ih =>
      obtain ⟨other, diff⟩ := first
      rw [insert_cons]
      by_cases front : time < diff
      · have shift : base + time + (diff - time) = base + diff := by omega
        simp [front, shift]
      · have shift : base + diff + (time - diff) = base + time := by omega
        simp only [front, if_false, deadlines_cons, List.mem_cons, ih, shift]
        tauto

theorem map_fst_deadlines (base : Nat) (entries : List (α × Nat)) :
    (deadlines base entries).map Prod.fst = entries.map Prod.fst := by
  induction entries generalizing base with
  | nil => rfl
  | cons entry rest ih => rw [deadlines_cons, List.map_cons, List.map_cons, ih]

theorem insert_split (time : Nat) (key : α) (entries : List (α × Nat)) :
    ∃ front back, entries.map Prod.fst = front ++ back ∧
      (insert time key entries).map Prod.fst = front ++ key :: back := by
  induction entries generalizing time with
  | nil => exact ⟨[], [], rfl, rfl⟩
  | cons first rest ih =>
      obtain ⟨other, diff⟩ := first
      rw [insert_cons]
      by_cases before : time < diff
      · exact ⟨[], other :: rest.map Prod.fst, rfl, by simp [before]⟩
      · obtain ⟨front, back, split, inserted⟩ := ih (time - diff)
        exact ⟨other :: front, back, by simp [split], by simp [before, inserted]⟩

theorem mem_keys_insert {time : Nat} {key other : α} {entries : List (α × Nat)} :
    other ∈ (insert time key entries).map Prod.fst ↔
      other = key ∨ other ∈ entries.map Prod.fst := by
  obtain ⟨front, back, split, inserted⟩ := insert_split time key entries
  rw [split, inserted]
  simp only [List.mem_append, List.mem_cons]
  tauto

theorem nodup_keys_insert {time : Nat} {key : α} {entries : List (α × Nat)}
    (unique : (entries.map Prod.fst).Nodup) (absent : key ∉ entries.map Prod.fst) :
    ((insert time key entries).map Prod.fst).Nodup := by
  obtain ⟨front, back, split, inserted⟩ := insert_split time key entries
  rw [split] at unique absent
  rw [inserted]
  exact List.nodup_middle.mpr (List.nodup_cons.mpr ⟨absent, unique⟩)

theorem insert_pending {time : Nat} {key : α} {entries : List (α × Nat)} (positive : 0 < time)
    (pending : Pending entries) : Pending (insert time key entries) := by
  cases entries with
  | nil => exact positive
  | cons first rest =>
      obtain ⟨other, diff⟩ := first
      rw [insert_cons]
      split
      · exact positive
      · exact pending

theorem deadlines_insert (base time : Nat) (key : α) (entries : List (α × Nat)) :
    ∃ front back, deadlines base entries = front ++ back ∧
      deadlines base (insert time key entries) = front ++ (key, base + time) :: back ∧
      (∀ entry ∈ front, entry.2 ≤ base + time) ∧ ∀ entry ∈ back, base + time < entry.2 := by
  induction entries generalizing base time with
  | nil => exact ⟨[], [], rfl, rfl, by simp, by simp⟩
  | cons first rest ih =>
      obtain ⟨other, diff⟩ := first
      rw [insert_cons]
      by_cases before : time < diff
      · have shift : base + time + (diff - time) = base + diff := by omega
        refine ⟨[], deadlines base ((other, diff) :: rest), rfl, by simp [before, shift],
          by simp, ?_⟩
        rintro ⟨later, expires⟩ isIn
        have bound : base + diff ≤ expires := by
          rcases List.mem_cons.mp isIn with same | inRest
          · exact Nat.le_of_eq (Prod.mk.inj same).2.symm
          · exact base_le_deadline inRest
        simp only
        omega
      · obtain ⟨front, back, split, inserted, sooner, later⟩ := ih (base + diff) (time - diff)
        have shift : base + diff + (time - diff) = base + time := by omega
        rw [shift] at inserted sooner later
        refine ⟨(other, base + diff) :: front, back, by simp [split], by simp [before, inserted],
          ?_, later⟩
        intro entry isIn
        rcases List.mem_cons.mp isIn with rfl | inFront
        · simp only
          omega
        · exact sooner entry inFront

theorem deadlines_growFirst (base diff : Nat) (entries : List (α × Nat)) :
    deadlines base (growFirst diff entries) = deadlines (base + diff) entries := by
  cases entries with
  | nil => rfl
  | cons first rest =>
      obtain ⟨key, first⟩ := first
      change (key, base + (first + diff)) :: deadlines (base + (first + diff)) rest = _
      have shift : base + (first + diff) = base + diff + first := by omega
      rw [shift, deadlines_cons]

section Delete

variable [DecidableEq α]

theorem delete_append {front back : List (α × Nat)} {key : α} {diff : Nat}
    (absent : key ∉ front.map Prod.fst) :
    delete key (front ++ (key, diff) :: back) = front ++ growFirst diff back := by
  induction front with
  | nil => rw [List.nil_append, List.nil_append, delete_cons, if_pos rfl]
  | cons first rest ih =>
      rw [List.map_cons, List.mem_cons, not_or] at absent
      obtain ⟨other, otherDiff⟩ := first
      have different : other ≠ key := fun same => absent.1 same.symm
      rw [List.cons_append, List.cons_append, delete_cons, if_neg different, ih absent.2]

theorem deadlines_delete {base : Nat} {entries : List (α × Nat)} {key : α}
    (unique : (entries.map Prod.fst).Nodup) : deadlines base (delete key entries) =
      (deadlines base entries).filter fun entry => entry.1 ≠ key := by
  induction entries generalizing base with
  | nil => rfl
  | cons first rest ih =>
      obtain ⟨other, diff⟩ := first
      obtain ⟨absent, restUnique⟩ := List.nodup_cons.mp unique
      by_cases here : other = key
      · have kept : ∀ entry ∈ deadlines (base + diff) rest, decide (entry.1 ≠ key) = true := by
          intro entry isIn
          have inKeys : entry.1 ∈ rest.map Prod.fst := by
            rw [← map_fst_deadlines (base + diff)]
            exact List.mem_map_of_mem isIn
          exact decide_eq_true fun same => absent (here ▸ same ▸ inKeys)
        rw [delete_cons, if_pos here, deadlines_growFirst, deadlines_cons]
        rw [List.filter_cons_of_neg (by simpa using here), List.filter_eq_self.mpr kept]
      · rw [delete_cons, if_neg here, deadlines_cons, deadlines_cons]
        rw [List.filter_cons_of_pos (by simpa using here), ih restUnique]

end Delete

theorem expire_append (entries : List (α × Nat)) :
    entries.map Prod.fst = (expire entries).1 ++ (expire entries).2.map Prod.fst := by
  induction entries with
  | nil => rfl
  | cons first rest ih =>
      obtain ⟨key, diff⟩ := first
      by_cases expired : diff = 0 <;> simp [expire_cons, expired, ih]

theorem expire_pending (entries : List (α × Nat)) : Pending (expire entries).2 := by
  induction entries with
  | nil => trivial
  | cons first rest ih =>
      obtain ⟨key, diff⟩ := first
      by_cases expired : diff = 0
      · simpa [expire_cons, expired] using ih
      · simpa [expire_cons, expired, Pending] using Nat.pos_of_ne_zero expired

theorem deadlines_expire (base : Nat) (entries : List (α × Nat)) :
    deadlines base entries =
      (expire entries).1.map (fun key => (key, base)) ++ deadlines base (expire entries).2 := by
  induction entries with
  | nil => rfl
  | cons first rest ih =>
      obtain ⟨key, diff⟩ := first
      by_cases expired : diff = 0
      · simp [expire_cons, expired, ih]
      · simp [expire_cons, expired]

theorem deadlines_shift (base : Nat) (entries : List (α × Nat)) :
    deadlines (base + 1) entries =
      (deadlines base entries).map fun entry => (entry.1, entry.2 + 1) := by
  induction entries generalizing base with
  | nil => rfl
  | cons first rest ih =>
      obtain ⟨key, diff⟩ := first
      have swap : base + 1 + diff = base + diff + 1 := by omega
      simp [swap, ih]

theorem deadlines_tick {entries : List (α × Nat)} (pending : Pending entries) :
    deadlines 0 entries = (tick entries).1.map (fun key => (key, 1)) ++
      deadlines 1 (tick entries).2 := by
  cases entries with
  | nil => rfl
  | cons first rest =>
      obtain ⟨key, diff⟩ := first
      have positive : 0 < diff := pending
      have shifted : deadlines 0 ((key, diff) :: rest) = deadlines 1 ((key, diff - 1) :: rest) := by
        have restored : 1 + (diff - 1) = 0 + diff := by omega
        simp [restored]
      rw [shifted, deadlines_expire]
      rfl

theorem tick_pending (entries : List (α × Nat)) : Pending (tick entries).2 := by
  cases entries with
  | nil => trivial
  | cons first rest => exact expire_pending ((first.1, first.2 - 1) :: rest)

theorem mem_tick {entries : List (α × Nat)} {key : α} {time : Nat} (pending : Pending entries)
    (member : (key, time + 1) ∈ deadlines 0 entries) :
    if time = 0 then key ∈ (tick entries).1 ∨ (key, 0) ∈ deadlines 0 (tick entries).2
    else (key, time) ∈ deadlines 0 (tick entries).2 := by
  rw [deadlines_tick pending, List.mem_append, show (1 : Nat) = 0 + 1 from rfl,
    deadlines_shift] at member
  rcases member with reached | later
  · obtain ⟨other, isIn, same⟩ := List.mem_map.mp reached
    simp only [Prod.mk.injEq] at same
    obtain ⟨rfl, zero⟩ := same
    rw [if_pos (by omega)]
    exact Or.inl isIn
  · obtain ⟨⟨other, left⟩, isIn, same⟩ := List.mem_map.mp later
    simp only [Prod.mk.injEq, Nat.add_right_cancel_iff] at same
    obtain ⟨rfl, rfl⟩ := same
    split
    · rename_i zero
      subst zero
      exact Or.inr isIn
    · exact isIn

theorem Pending.deadline_pos {entries : List (α × Nat)} {key : α} {time : Nat}
    (pending : Pending entries) (member : (key, time) ∈ deadlines 0 entries) : 0 < time := by
  cases entries with
  | nil => simp at member
  | cons first rest =>
      obtain ⟨other, diff⟩ := first
      have positive : 0 < diff := pending
      simp only [deadlines_cons, List.mem_cons, Prod.mk.injEq, Nat.zero_add] at member
      rcases member with ⟨_, same⟩ | later
      · omega
      · have bound := base_le_deadline later
        omega

end DeltaList
