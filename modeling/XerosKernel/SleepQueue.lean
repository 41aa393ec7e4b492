import Mathlib.Data.Finset.Prod
import XerosKernel.DeltaList
import XerosKernel.Execution
import XerosKernel.ReadyQueue

/-!
The sleep queue as a delta list. The functions of `sleep.c` follow its links and edit the
differences; read as a list, `sleep` is `DeltaList.insert` and `tick` is `DeltaList.tick`.
-/

namespace XerosKernel

open IntrusiveList

namespace Kernel

def diff (kernel : Kernel) (i : Slot) : Nat := (kernel.proctab i).sleepdiff.toNat

def sleepers (kernel : Kernel) (sq : List Slot) : List (Slot × Nat) :=
  sq.map fun i => (i, kernel.diff i)

end Kernel

section Sleepers

variable {kernel kernel' : Kernel} {p : Slot} {sq : List Slot}

@[simp] theorem sleepers_nil : kernel.sleepers [] = [] := rfl

@[simp] theorem sleepers_cons {first : Slot} {rest : List Slot} :
    kernel.sleepers (first :: rest) = (first, kernel.diff first) :: kernel.sleepers rest := rfl

theorem sleepers_append {front back : List Slot} :
    kernel.sleepers (front ++ back) = kernel.sleepers front ++ kernel.sleepers back :=
  List.map_append

theorem sleepers_keys : (kernel.sleepers sq).map Prod.fst = sq := by
  simp [Kernel.sleepers, Function.comp_def]

theorem sleepers_congr (same : ∀ i ∈ sq, (kernel'.proctab i).sleepdiff =
    (kernel.proctab i).sleepdiff) : kernel'.sleepers sq = kernel.sleepers sq := by
  apply List.map_congr_left
  intro i member
  rw [Kernel.diff, Kernel.diff, same i member]

end Sleepers

/-! Inserting. -/

def shrinkFirst (len : Nat) : List (Slot × Nat) → List (Slot × Nat)
  | [] => []
  | (key, diff) :: rest => (key, diff - len) :: rest

theorem sleepSearch_of_chain {kernel : Kernel} {tmp : Slot} {rest : List Slot} (p : Slot)
    (len : Word) {fuel : Nat} (chain : Chain kernel.link (kernel.link tmp) rest)
    (enough : rest.length < fuel) :
    ∃ front before back left, tmp :: rest = front ++ before :: back ∧
      sleepSearch kernel fuel tmp len = some (before, left) ∧
      (tmp, kernel.diff tmp) :: DeltaList.insert len.toNat p (kernel.sleepers rest) =
        kernel.sleepers (front ++ [before]) ++
          (p, left.toNat) :: shrinkFirst left.toNat (kernel.sleepers back) ∧
      ∀ behind ∈ back.head?, left < (kernel.proctab behind).sleepdiff := by
  induction rest generalizing fuel tmp len with
  | nil =>
      cases fuel with
      | zero => simp at enough
      | succ fuel =>
          have ends : (kernel.proctab tmp).next = none := chain
          exact ⟨[], tmp, [], len, rfl, by simp [sleepSearch, ends],
            by simp [DeltaList.insert, shrinkFirst], by simp⟩
  | cons node rest ih =>
      cases fuel with
      | zero => simp at enough
      | succ fuel =>
          have more : (kernel.proctab tmp).next = some node := chain.1
          have shorter : rest.length < fuel := by
            simp only [List.length_cons] at enough
            omega
          simp only [sleepSearch, more]
          by_cases here : len < (kernel.proctab node).sleepdiff
          · have smaller : len.toNat < kernel.diff node := here
            refine ⟨[], tmp, node :: rest, len, rfl, by simp [here], ?_, by simpa using here⟩
            simp [DeltaList.insert, smaller, shrinkFirst]
          · have larger : ¬ len.toNat < kernel.diff node := here
            have subtract : (len - (kernel.proctab node).sleepdiff).toNat =
                len.toNat - kernel.diff node :=
              BitVec.toNat_sub_of_le (BitVec.not_lt.mp here)
            obtain ⟨front, before, back, left, split, search, inserted, below⟩ :=
              ih (len - (kernel.proctab node).sleepdiff) chain.2 shorter
            refine ⟨tmp :: front, before, back, left, by simp [split], by simp [here, search],
              ?_, below⟩
            rw [subtract] at inserted
            simp only [sleepers_cons, DeltaList.insert, larger, if_false, inserted,
              List.cons_append]

theorem loopFuel_le_sleepFuel (len : Word) : loopFuel ≤ sleepFuel len := by
  rw [loopFuel, sleepFuel]
  exact Nat.add_le_add_right (Nat.le_mul_of_pos_left MAX_PROC (by omega)) 1

/-- A round of the loop of `sleep` that is not its last. -/
def sleepRound (kernel : Kernel) (place : Slot × Word) (_ : Unit) : Option (Slot × Word) :=
  (kernel.link place.1).bind fun behind =>
    if place.2 < (kernel.proctab behind).sleepdiff then none
    else some (behind, place.2 - (kernel.proctab behind).sleepdiff)

theorem sleepSearch_eq_none_iff {kernel : Kernel} {fuel : Nat} {tmp : Slot} {len : Word} :
    sleepSearch kernel fuel tmp len = none ↔
      (Execution.run (sleepRound kernel) (tmp, len) (List.replicate fuel ())).isSome := by
  induction fuel generalizing tmp len with
  | zero => simp [sleepSearch]
  | succ fuel ih =>
      rw [List.replicate_succ, Execution.run_cons, sleepRound, Kernel.link, sleepSearch]
      cases (kernel.proctab tmp).next with
      | none => simp
      | some behind =>
          simp only [Option.bind_some]
          split
          · simp
          · rw [ih, Option.bind_some]

theorem sleepSearch_places (len : Word) : ∃ codes : Finset (Slot × Nat),
    (∀ place : Slot × Word, place.2 ≤ len → (place.1, place.2.toNat) ∈ codes) ∧
      codes.card ≤ sleepFuel len := by
  refine ⟨Finset.univ ×ˢ Finset.range (len.toNat + 1), ?_, ?_⟩
  · intro place within
    have small : place.2.toNat < len.toNat + 1 := Nat.lt_succ_of_le (BitVec.le_def.mp within)
    rw [Finset.mem_product, Finset.mem_range]
    exact ⟨Finset.mem_univ place.1, small⟩
  · rw [Finset.card_product, Finset.card_univ, Fintype.card_fin, Finset.card_range, sleepFuel,
      Nat.mul_comm]
    have more : (len.toNat + 1) * MAX_PROC ≤ (len.toNat + 2) * MAX_PROC :=
      Nat.mul_le_mul_right MAX_PROC (Nat.le_succ _)
    exact Nat.le_succ_of_le more

/-- The rounds of `sleepSearch` suffice: a search that they do not end never ends. There are
`len.toNat + 1` numbers of ticks for each process to come back with. -/
theorem sleepSearch_endless {kernel : Kernel} {tmp : Slot} {len : Word}
    (cut : sleepSearch kernel (sleepFuel len) tmp len = none) (fuel : Nat) :
    sleepSearch kernel fuel tmp len = none := by
  rw [sleepSearch_eq_none_iff] at cut ⊢
  have preserved (place : Slot × Word) (event : Unit) (after : Slot × Word)
      (within : place.2 ≤ len) (stepped : sleepRound kernel place event = some after) :
      after.2 ≤ len := by
    obtain ⟨behind, _, later⟩ := Option.bind_eq_some_iff.mp stepped
    split at later
    · cases later
    · rename_i above
      cases later
      have smaller := BitVec.toNat_sub_of_le (BitVec.not_lt.mp above)
      exact BitVec.le_def.mpr (smaller.trans_le ((Nat.sub_le _ _).trans (BitVec.le_def.mp within)))
  have injective : Function.Injective fun place : Slot × Word => (place.1, place.2.toNat) := by
    intro first second same
    obtain ⟨slots, ticks⟩ := Prod.mk.inj same
    exact Prod.ext slots (BitVec.eq_of_toNat_eq ticks)
  obtain ⟨codes, coded, enough⟩ := sleepSearch_places len
  have long := Execution.run_replicate_take enough cut
  exact Execution.run_replicate_endless (fun place => place.2 ≤ len) preserved _ injective
    codes coded (BitVec.le_refl len) long fuel

def asleep (kernel : Kernel) (p : Slot) : Kernel :=
  kernel.modify p fun pcb => { pcb with state := .sleep, next := none, prev := none }

def linkAlone (kernel : Kernel) (p : Slot) (len : Word) : Kernel :=
  ({ kernel with sleepQ := some p }).modify p fun pcb => { pcb with sleepdiff := len }

def linkFront (kernel : Kernel) (p first : Slot) (len : Word) : Kernel :=
  { ((kernel.modify p fun pcb => { pcb with next := some first }).modify first fun pcb =>
      { pcb with sleepdiff := pcb.sleepdiff - len }).modify p fun pcb =>
        { pcb with sleepdiff := len } with sleepQ := some p }

def spliced (kernel : Kernel) (p tmp : Slot) (len : Word) : Kernel :=
  (kernel.modify p fun pcb =>
    { pcb with next := kernel.link tmp, prev := some tmp, sleepdiff := len }).modify tmp
      fun pcb => { pcb with next := some p }

def linkBehind (kernel : Kernel) (p tmp : Slot) (len : Word) : Kernel :=
  match kernel.link tmp with
  | none => spliced kernel p tmp len
  | some q => (spliced kernel p tmp len).modify q fun pcb =>
      { pcb with prev := some p, sleepdiff := pcb.sleepdiff - len }

section Link

variable {kernel : Kernel} {p first tmp : Slot} {len : Word}

theorem linkAlone_unlinked : (linkAlone kernel p len).unlinked = kernel.unlinked :=
  modify_links _ p (fun pcb => { pcb with sleepdiff := len }) fun _ => rfl

theorem linkFront_link (different : first ≠ p) (i : Slot) :
    (linkFront kernel p first len).link i = if i = p then some first else kernel.link i := by
  by_cases isP : i = p
  · subst isP
    simp [linkFront, Kernel.link, Ne.symm different]
  · by_cases isFirst : i = first <;> simp [linkFront, Kernel.link, isP, isFirst, different]

theorem linkFront_sleepdiff (different : first ≠ p) (i : Slot) :
    ((linkFront kernel p first len).proctab i).sleepdiff =
      if i = p then len
      else if i = first then (kernel.proctab i).sleepdiff - len
      else (kernel.proctab i).sleepdiff := by
  by_cases isP : i = p
  · subst isP
    simp [linkFront]
  · by_cases isFirst : i = first <;> simp [linkFront, isP, isFirst, different]

theorem linkFront_unlinked : (linkFront kernel p first len).unlinked = kernel.unlinked := by
  have linked := modify_links kernel p (fun pcb => { pcb with next := some first }) fun _ => rfl
  have shrunk := modify_links (kernel.modify p fun pcb => { pcb with next := some first }) first
    (fun pcb => { pcb with sleepdiff := pcb.sleepdiff - len }) fun _ => rfl
  exact ((modify_links _ p (fun pcb => { pcb with sleepdiff := len }) fun _ => rfl).trans
    shrunk).trans linked

theorem spliced_sleepdiff (i : Slot) : ((spliced kernel p tmp len).proctab i).sleepdiff =
    if i = p then len else (kernel.proctab i).sleepdiff := by
  rw [spliced, Kernel.modify_same _ tmp (fun pcb => { pcb with next := some p }) (·.sleepdiff) rfl]
  by_cases isP : i = p <;> simp [isP]

theorem spliced_unlinked : (spliced kernel p tmp len).unlinked = kernel.unlinked := by
  have entered := modify_links kernel p (fun pcb =>
    { pcb with next := kernel.link tmp, prev := some tmp, sleepdiff := len }) fun _ => rfl
  exact (modify_links _ tmp (fun pcb => { pcb with next := some p }) fun _ => rfl).trans entered

theorem linkBehind_link (different : tmp ≠ p) (i : Slot) :
    (linkBehind kernel p tmp len).link i =
      if i = tmp then some p else if i = p then kernel.link tmp else kernel.link i := by
  have linked : (spliced kernel p tmp len).link i =
      if i = tmp then some p else if i = p then kernel.link tmp else kernel.link i := by
    by_cases isTmp : i = tmp
    · subst isTmp
      simp [spliced, Kernel.link]
    · by_cases isP : i = p
      · subst isP
        simp [spliced, Kernel.link, isTmp]
      · simp [spliced, Kernel.link, isTmp, isP]
  rw [← linked, linkBehind]
  cases behind : kernel.link tmp with
  | none => rfl
  | some q => exact Kernel.modify_same _ q _ (·.next) rfl i

theorem linkBehind_sleepdiff (apart : kernel.link tmp ≠ some p) (i : Slot) :
    ((linkBehind kernel p tmp len).proctab i).sleepdiff =
      if i = p then len
      else if kernel.link tmp = some i then (kernel.proctab i).sleepdiff - len
      else (kernel.proctab i).sleepdiff := by
  rw [linkBehind]
  cases behind : kernel.link tmp with
  | none => simpa using spliced_sleepdiff i
  | some q =>
      have notP : q ≠ p := fun equal => apart (by rw [behind, equal])
      rw [Kernel.modify_proctab]
      by_cases isQ : i = q
      · subst isQ
        simp [spliced_sleepdiff, notP]
      · simp [spliced_sleepdiff, isQ, Ne.symm isQ]

theorem linkBehind_sleepers (apart : kernel.link tmp ≠ some p) {nodes : List Slot}
    (absent : p ∉ nodes) (notBehind : ∀ i ∈ nodes, kernel.link tmp ≠ some i) :
    (linkBehind kernel p tmp len).sleepers nodes = kernel.sleepers nodes := by
  refine sleepers_congr ?_
  intro i member
  have notP : i ≠ p := fun equal => absent (equal ▸ member)
  rw [linkBehind_sleepdiff apart, if_neg notP, if_neg (notBehind i member)]

theorem linkBehind_unlinked : (linkBehind kernel p tmp len).unlinked = kernel.unlinked := by
  rw [linkBehind]
  cases kernel.link tmp with
  | none => exact spliced_unlinked
  | some q =>
      exact (modify_links _ q (fun pcb =>
        { pcb with prev := some p, sleepdiff := pcb.sleepdiff - len }) fun _ => rfl).trans
          spliced_unlinked

theorem linkBehind_head : (linkBehind kernel p tmp len).head = kernel.head := by
  rw [linkBehind]
  cases kernel.link tmp <;> rfl

theorem linkBehind_tail : (linkBehind kernel p tmp len).tail = kernel.tail := by
  rw [linkBehind]
  cases kernel.link tmp <;> rfl

theorem linkBehind_sleepQ : (linkBehind kernel p tmp len).sleepQ = kernel.sleepQ := by
  rw [linkBehind]
  cases kernel.link tmp <;> rfl

end Link

section Sleep

variable {kernel : Kernel} {p first tmp : Slot} {len left : Word}

theorem sleep_alone (positive : ¬ len < 1) (head : kernel.sleepQ = none) :
    sleep kernel p len = some (linkAlone (asleep kernel p) p (len / MILLISECONDS_TICK)) := by
  simp only [sleep, if_neg positive, Kernel.modify_sleepQ, head]
  rfl

theorem sleep_front (positive : ¬ len < 1) (head : kernel.sleepQ = some first)
    (below : len / MILLISECONDS_TICK < ((asleep kernel p).proctab first).sleepdiff) :
    sleep kernel p len =
      some (linkFront (asleep kernel p) p first (len / MILLISECONDS_TICK)) := by
  rw [asleep] at below
  simp only [sleep, if_neg positive, Kernel.modify_sleepQ, head, if_pos below]
  rfl

theorem sleep_behind (positive : ¬ len < 1) (head : kernel.sleepQ = some first)
    (above : ¬ len / MILLISECONDS_TICK < ((asleep kernel p).proctab first).sleepdiff)
    (search : sleepSearch (asleep kernel p) (sleepFuel (len / MILLISECONDS_TICK -
        ((asleep kernel p).proctab first).sleepdiff)) first (len / MILLISECONDS_TICK -
      ((asleep kernel p).proctab first).sleepdiff) = some (tmp, left)) (different : tmp ≠ p) :
    sleep kernel p len = some (linkBehind (asleep kernel p) p tmp left) := by
  rw [asleep] at above search
  simp only [sleep, if_neg positive, Kernel.modify_sleepQ, head, if_neg above, search]
  have behind : ((spliced (asleep kernel p) p tmp left).proctab p).next =
      (asleep kernel p).link tmp := by
    simp [spliced, Ne.symm different]
  change (match ((spliced (asleep kernel p) p tmp left).proctab p).next with
    | none => some (spliced (asleep kernel p) p tmp left)
    | some q => some ((spliced (asleep kernel p) p tmp left).modify q fun pcb =>
        { pcb with prev := some p, sleepdiff := pcb.sleepdiff - left })) = _
  rw [behind, linkBehind]
  cases (asleep kernel p).link tmp <;> rfl

end Sleep

def unlinkBetween (kernel : Kernel) (prev p q : Slot) : Kernel :=
  let unlinked := kernel.modify prev fun pcb => { pcb with next := some q }
  (unlinked.modify q fun pcb =>
    { pcb with sleepdiff := pcb.sleepdiff + (unlinked.proctab p).sleepdiff }).modify p
      fun pcb => { pcb with next := none }

theorem unlinkBetween_link (kernel : Kernel) (prev p q i : Slot) :
    (unlinkBetween kernel prev p q).link i =
      if i = p then none else if i = prev then some q else kernel.link i := by
  simp only [unlinkBetween, Kernel.link]
  rw [Kernel.modify_proctab]
  split
  · rfl
  · refine (Kernel.modify_same _ q _ (·.next) rfl i).trans ?_
    rw [Kernel.modify_proctab]
    split <;> rfl

theorem unlinkBetween_sleepdiff (kernel : Kernel) (prev p q i : Slot) :
    ((unlinkBetween kernel prev p q).proctab i).sleepdiff =
      if q = i then (kernel.proctab i).sleepdiff + (kernel.proctab p).sleepdiff
      else (kernel.proctab i).sleepdiff := by
  have kept := Kernel.modify_same kernel prev (fun pcb => { pcb with next := some q })
    (·.sleepdiff) rfl
  refine (Kernel.modify_same _ p (fun pcb => { pcb with next := none }) (·.sleepdiff) rfl
    i).trans ?_
  by_cases isQ : q = i
  · subst isQ
    simp only [Kernel.modify_proctab _ q, if_true]
    rw [kept, kept]
  · have other : i ≠ q := fun same => isQ same.symm
    rw [if_neg isQ, Kernel.modify_proctab, if_neg other]
    exact kept i

/-- The sleep queue holds `entries`, each process with its `sleepdiff`. -/
structure SleepQueue (kernel : Kernel) (entries : List (Slot × Nat)) : Prop where
  chain : Chain kernel.link kernel.sleepQ (entries.map Prod.fst)
  diffs : kernel.sleepers (entries.map Prod.fst) = entries

namespace SleepQueue

variable {kernel kernel' : Kernel} {p : Slot} {entries : List (Slot × Nat)}

theorem of_chain {sq : List Slot} (chain : Chain kernel.link kernel.sleepQ sq) :
    SleepQueue kernel (kernel.sleepers sq) :=
  ⟨by rwa [sleepers_keys], by rw [sleepers_keys]⟩

theorem congr (queue : SleepQueue kernel entries) (sleepQ : kernel'.sleepQ = kernel.sleepQ)
    (same : ∀ i ∈ entries.map Prod.fst, kernel'.link i = kernel.link i ∧
      (kernel'.proctab i).sleepdiff = (kernel.proctab i).sleepdiff) :
    SleepQueue kernel' entries where
  chain := by
    rw [sleepQ]
    exact queue.chain.congr fun i member => (same i member).1
  diffs := (sleepers_congr fun i member => (same i member).2).trans queue.diffs

theorem insertAlone {len : Word} :
    SleepQueue (linkAlone (asleep kernel p) p len) [(p, len.toNat)] := by
  constructor
  · exact ⟨rfl, by simp [linkAlone, asleep, Kernel.link]⟩
  · simp [linkAlone, Kernel.diff]

theorem insertFront (queue : SleepQueue kernel entries) {first : Slot} {rest : List (Slot × Nat)}
    {len : Word} (split : entries = (first, kernel.diff first) :: rest)
    (absent : p ∉ entries.map Prod.fst) (below : len < (kernel.proctab first).sleepdiff) :
    SleepQueue (linkFront kernel p first len)
      ((p, len.toNat) :: (first, kernel.diff first - len.toNat) :: rest) := by
  subst split
  have unique := List.nodup_cons.mp queue.chain.nodup
  have different : first ≠ p := fun equal => absent (by simp [equal])
  have restNotP : ∀ i ∈ rest.map Prod.fst, i ≠ p := by
    intro i member equal
    exact absent (by simp [← equal, List.mem_map.mp member])
  have restNotFirst : ∀ i ∈ rest.map Prod.fst, i ≠ first := fun i member equal =>
    unique.1 (equal ▸ member)
  constructor
  · refine ⟨rfl, ?_, ?_⟩
    · simp [linkFront_link different]
    · rw [linkFront_link different, if_neg different]
      refine queue.chain.2.congr ?_
      intro i member
      rw [linkFront_link different, if_neg (restNotP i member)]
  · have tail : kernel.sleepers (rest.map Prod.fst) = rest := (List.cons.inj queue.diffs).2
    have shrunk : ((kernel.proctab first).sleepdiff - len).toNat =
        kernel.diff first - len.toNat := BitVec.toNat_sub_of_le (BitVec.le_of_lt below)
    have untouched : (linkFront kernel p first len).sleepers (rest.map Prod.fst) =
        kernel.sleepers (rest.map Prod.fst) := by
      refine sleepers_congr ?_
      intro i member
      rw [linkFront_sleepdiff different, if_neg (restNotP i member),
        if_neg (restNotFirst i member)]
    simp only [List.map_cons, sleepers_cons, untouched, tail]
    simp [Kernel.diff, linkFront_sleepdiff different, different, shrunk]

theorem linkBehind_shrinks {back : List Slot} {tmp : Slot} {len : Word} (unique : back.Nodup)
    (absent : p ∉ back) (behindTmp : kernel.link tmp = back.head?)
    (below : ∀ behind ∈ back.head?, len < (kernel.proctab behind).sleepdiff) :
    (linkBehind kernel p tmp len).sleepers back =
      shrinkFirst len.toNat (kernel.sleepers back) := by
  have apart : kernel.link tmp ≠ some p := by
    intro equal
    rw [behindTmp] at equal
    exact absent (List.mem_of_head? equal)
  cases back with
  | nil => rfl
  | cons behind rest =>
      have behindUnique : behind ∉ rest := (List.nodup_cons.mp unique).1
      have notP : behind ≠ p := fun equal => absent (by simp [equal])
      have untouched : (linkBehind kernel p tmp len).sleepers rest =
          kernel.sleepers rest := by
        refine linkBehind_sleepers apart (fun member => absent (by simp [member])) ?_
        intro i member equal
        rw [behindTmp] at equal
        simp only [List.head?_cons, Option.some.injEq] at equal
        exact behindUnique (equal ▸ member)
      have shrunk : ((kernel.proctab behind).sleepdiff - len).toNat =
          kernel.diff behind - len.toNat :=
        BitVec.toNat_sub_of_le (BitVec.le_of_lt (below behind rfl))
      have here : (linkBehind kernel p tmp len).diff behind =
          kernel.diff behind - len.toNat := by
        rw [Kernel.diff, linkBehind_sleepdiff apart, if_neg notP, behindTmp,
          List.head?_cons, if_pos rfl, shrunk]
      simp only [sleepers_cons, shrinkFirst, untouched, here]

theorem insertBehind {front back : List Slot} {tmp : Slot} {len : Word}
    (chain : Chain kernel.link kernel.sleepQ (front ++ tmp :: back))
    (absent : p ∉ front ++ tmp :: back)
    (below : ∀ behind ∈ back.head?, len < (kernel.proctab behind).sleepdiff) :
    SleepQueue (linkBehind kernel p tmp len) (kernel.sleepers (front ++ [tmp]) ++
      (p, len.toNat) :: shrinkFirst len.toNat (kernel.sleepers back)) := by
  have unique := chain.nodup
  have different : tmp ≠ p := fun equal => absent (by simp [equal])
  have behindTmp : kernel.link tmp = back.head? := chain.next_of_split.head_eq
  have apart : kernel.link tmp ≠ some p := by
    intro equal
    rw [behindTmp] at equal
    exact absent (by simp [List.mem_of_head? equal])
  have inserted : Chain (linkBehind kernel p tmp len).link kernel.sleepQ
      (front ++ tmp :: p :: back) := by
    refine chain.insert ?_ ?_ ?_
    · simp [linkBehind_link different]
    · simp [linkBehind_link different, Ne.symm different]
    · intro other member
      have notTmp : other ≠ tmp := by
        rintro rfl
        simp only [List.nodup_append, List.nodup_cons, List.mem_append] at unique member
        rcases member with before | after
        · exact unique.2.2 other before other (by simp) rfl
        · exact unique.2.1.1 after
      have notP : other ≠ p := by
        rintro rfl
        simp only [List.mem_append, List.mem_cons, not_or] at absent member
        tauto
      rw [linkBehind_link different, if_neg notTmp, if_neg notP]
  rw [← linkBehind_sleepQ] at inserted
  have frontSame : (linkBehind kernel p tmp len).sleepers (front ++ [tmp]) =
      kernel.sleepers (front ++ [tmp]) := by
    refine linkBehind_sleepers apart (by simp at absent ⊢; tauto) ?_
    intro i member equal
    rw [behindTmp] at equal
    have twice := List.mem_of_head? equal
    rw [show front ++ tmp :: back = (front ++ [tmp]) ++ back by simp, List.nodup_append] at unique
    exact unique.2.2 i member i twice rfl
  have backShrunk : (linkBehind kernel p tmp len).sleepers back =
      shrinkFirst len.toNat (kernel.sleepers back) := by
    refine linkBehind_shrinks ?_ (fun member => absent (by simp [member])) behindTmp below
    exact (List.nodup_cons.mp (List.nodup_append.mp unique).2.1).2
  have diffP : (linkBehind kernel p tmp len).diff p = len.toNat := by
    rw [Kernel.diff, linkBehind_sleepdiff apart, if_pos rfl]
  have whole : (linkBehind kernel p tmp len).sleepers (front ++ tmp :: p :: back) =
      kernel.sleepers (front ++ [tmp]) ++
        (p, len.toNat) :: shrinkFirst len.toNat (kernel.sleepers back) := by
    rw [show front ++ tmp :: p :: back = (front ++ [tmp]) ++ p :: back by simp, sleepers_append,
      frontSame, sleepers_cons, backShrunk, diffP]
  rw [← whole]
  exact of_chain inserted

theorem insert (queue : SleepQueue kernel entries) {len : Word} (positive : ¬ len < 1)
    (absent : p ∉ entries.map Prod.fst) :
    ∃ kernel', sleep kernel p len = some kernel' ∧
      SleepQueue kernel' (DeltaList.insert (len / MILLISECONDS_TICK).toNat p entries) ∧
      kernel'.unlinked = kernel.unlinked.modify p (fun pcb => { pcb with state := .sleep }) ∧
      kernel'.head = kernel.head ∧ kernel'.tail = kernel.tail ∧
      ∀ i ∉ p :: entries.map Prod.fst, kernel'.link i = kernel.link i := by
  have start : SleepQueue (asleep kernel p) entries := by
    refine queue.congr rfl ?_
    intro i member
    have notP : i ≠ p := fun equal => absent (equal ▸ member)
    simp [asleep, Kernel.link, notP]
  have startUnlinked : (asleep kernel p).unlinked =
      kernel.unlinked.modify p fun pcb => { pcb with state := .sleep } :=
    modify_unlinked kernel p _ _ rfl
  have startLink : ∀ i ≠ p, (asleep kernel p).link i = kernel.link i := by
    intro i notP
    simp [asleep, Kernel.link, notP]
  cases entries with
  | nil =>
      refine ⟨_, sleep_alone positive queue.chain, insertAlone,
        linkAlone_unlinked.trans startUnlinked, rfl, rfl, ?_⟩
      intro i other
      have notP : i ≠ p := by simpa using other
      simp [linkAlone, asleep, Kernel.link, notP]
  | cons entry rest =>
      obtain ⟨first, diff⟩ := entry
      have head : kernel.sleepQ = some first := queue.chain.1
      have diffs := start.diffs
      rw [List.map_cons, sleepers_cons, List.cons.injEq, Prod.mk.injEq] at diffs
      obtain ⟨⟨_, firstDiff⟩, restDiffs⟩ := diffs
      have different : first ≠ p := fun equal => absent (by simp [equal])
      by_cases below : len / MILLISECONDS_TICK < ((asleep kernel p).proctab first).sleepdiff
      · have smaller : (len / MILLISECONDS_TICK).toNat < diff := by
          rw [← firstDiff]
          exact below
        refine ⟨_, sleep_front positive head below, ?_,
          linkFront_unlinked.trans startUnlinked, rfl, rfl, ?_⟩
        · rw [DeltaList.insert, if_pos smaller, ← firstDiff]
          exact start.insertFront (by rw [firstDiff]) absent below
        · intro i other
          simp only [List.mem_cons, not_or] at other
          rw [linkFront_link different, if_neg other.1, startLink i other.1]
      · have larger : ¬ (len / MILLISECONDS_TICK).toNat < diff := by
          rw [← firstDiff]
          exact below
        have unique := start.chain.nodup
        obtain ⟨front, before, back, left, split, search, inserted, ahead⟩ :=
          sleepSearch_of_chain p (len / MILLISECONDS_TICK -
            ((asleep kernel p).proctab first).sleepdiff) start.chain.2
            ((length_lt_loopFuel (List.nodup_cons.mp unique).2).trans_le
              (loopFuel_le_sleepFuel _))
        have chain := start.chain
        rw [List.map_cons, split] at chain
        rw [List.map_cons, split] at absent
        have notP : before ≠ p := fun equal => absent (by simp [equal])
        refine ⟨_, sleep_behind positive head below search notP, ?_, ?_, ?_, ?_, ?_⟩
        · rw [DeltaList.insert, if_neg larger]
          rw [BitVec.toNat_sub_of_le (BitVec.not_lt.mp below)] at inserted
          change (first, (asleep kernel p).diff first) :: DeltaList.insert
            (_ - (asleep kernel p).diff first) p _ = _ at inserted
          rw [firstDiff, restDiffs] at inserted
          rw [inserted]
          exact insertBehind chain absent ahead
        · exact linkBehind_unlinked.trans startUnlinked
        · exact linkBehind_head
        · exact linkBehind_tail
        · intro i other
          rw [List.map_cons, split] at other
          simp only [List.mem_cons, List.mem_append, not_or] at other
          rw [linkBehind_link notP, if_neg other.2.2.1, if_neg other.1, startLink i other.1]

/-! Removing. -/

theorem removed_diffs {back : List Slot} {left : Nat}
    (unique : back.Nodup)
    (diffs : ∀ i ∈ back, kernel'.diff i =
      if back.head? = some i then kernel.diff i + left else kernel.diff i) :
    kernel'.sleepers back = DeltaList.growFirst left (kernel.sleepers back) := by
  cases back with
  | nil => rfl
  | cons q rest =>
      have absent := (List.nodup_cons.mp unique).1
      have first := diffs q (by simp)
      rw [List.head?_cons, if_pos rfl] at first
      have others : kernel'.sleepers rest = kernel.sleepers rest := by
        apply List.map_congr_left
        intro i isIn
        have other : q ≠ i := fun same => absent (same ▸ isIn)
        rw [diffs i (by simp [isIn]), List.head?_cons, if_neg (by simpa using other)]
      simp only [sleepers_cons, DeltaList.growFirst, first, others]

theorem removeBehind {front back : List Slot} {prev : Slot}
    (chain : Chain kernel.link kernel.sleepQ (front ++ prev :: p :: back))
    (sleepQ : kernel'.sleepQ = kernel.sleepQ) (link : kernel'.link prev = kernel.link p)
    (agree : ∀ i ∈ front ++ back, kernel'.link i = kernel.link i)
    (diffs : ∀ i ∈ front ++ prev :: back, kernel'.diff i =
      if back.head? = some i then kernel.diff i + kernel.diff p else kernel.diff i) :
    SleepQueue kernel' (DeltaList.delete p (kernel.sleepers (front ++ prev :: p :: back))) := by
  have split : front ++ prev :: p :: back = (front ++ [prev]) ++ p :: back := by simp
  have joined : front ++ prev :: back = (front ++ [prev]) ++ back := by simp
  have unique := chain.nodup
  rw [split] at unique
  obtain ⟨_, behindUnique, apart⟩ := List.nodup_append.mp unique
  have absent : p ∉ front ++ [prev] := fun isIn => apart p isIn p (by simp) rfl
  have frontSame : kernel'.sleepers (front ++ [prev]) = kernel.sleepers (front ++ [prev]) := by
    apply List.map_congr_left
    intro i isIn
    rw [diffs i (by rw [joined]; exact List.mem_append_left _ isIn), if_neg]
    intro isHead
    exact apart i isIn i (List.mem_cons_of_mem _ (List.mem_of_head? isHead)) rfl
  have backGrown := removed_diffs (List.nodup_cons.mp behindUnique).2
    fun i isIn => diffs i (by rw [joined]; exact List.mem_append_right _ isIn)
  have removed := of_chain (sleepQ ▸ chain.unlink link agree)
  rw [joined, sleepers_append, frontSame, backGrown] at removed
  rw [split, sleepers_append, sleepers_cons, DeltaList.delete_append]
  · exact removed
  · rwa [sleepers_keys]

theorem removeFirst {rest : List (Slot × Nat)}
    (queue : SleepQueue kernel ((p, kernel.diff p) :: rest))
    (bounded : ∀ entry ∈ rest.head?, kernel.diff p + entry.2 < 2 ^ 32) :
    ∃ kernel', removeFromSleep kernel p = some kernel' ∧
      SleepQueue kernel' (DeltaList.growFirst (kernel.diff p) rest) := by
  have head : kernel.sleepQ = some p := queue.chain.1
  have unique := (List.nodup_cons.mp queue.chain.nodup).2
  have diffs := (List.cons.inj queue.diffs).2
  cases rest with
  | nil =>
      have ends : (kernel.proctab p).next = none := queue.chain.2
      exact ⟨{ kernel with sleepQ := none }, by simp [removeFromSleep, head, ends], rfl, rfl⟩
  | cons entry rest =>
      obtain ⟨q, diff⟩ := entry
      have more : (kernel.proctab p).next = some q := queue.chain.2.1
      have notQ : q ∉ rest.map Prod.fst := (List.nodup_cons.mp unique).1
      have here : kernel.diff q = diff := (Prod.mk.inj (List.cons.inj diffs).1).2
      have sum : kernel.diff p + diff < 2 ^ 32 := bounded (q, diff) (by simp)
      let kernel' := { kernel with sleepQ := some q }.modify q fun pcb =>
        { pcb with sleepdiff := pcb.sleepdiff + (kernel.proctab p).sleepdiff }
      refine ⟨kernel', by simp [removeFromSleep, head, more, kernel'], ?_, ?_⟩
      · have chain : Chain kernel.link (some q) (q :: rest.map Prod.fst) := more ▸ queue.chain.2
        refine chain.congr fun i _ => ?_
        exact Kernel.modify_same { kernel with sleepQ := some q } q (fun pcb =>
          { pcb with sleepdiff := pcb.sleepdiff + (kernel.proctab p).sleepdiff }) (·.next) rfl i
      · have grown : kernel'.diff q = diff + kernel.diff p := by
          rw [← here, Nat.add_comm] at sum
          have added := BitVec.toNat_add_of_lt sum
          rw [← here]
          simpa [kernel', Kernel.diff] using added
        have others : kernel'.sleepers (rest.map Prod.fst) = rest := by
          refine (sleepers_congr fun i isIn => ?_).trans (List.cons.inj diffs).2
          have other : i ≠ q := fun same => notQ (same ▸ isIn)
          simp [kernel', other]
        simp only [DeltaList.growFirst, List.map_cons, sleepers_cons, grown, others]

theorem neighbours_lt {front back : List Slot} {q : Slot}
    (bounded : ∀ entry ∈ DeltaList.deadlines 0 (kernel.sleepers (front ++ p :: q :: back)),
      entry.2 < 2 ^ 32) : kernel.diff q + kernel.diff p < 2 ^ 32 := by
  have isIn : (q, 0 + ((kernel.sleepers front).map Prod.snd).sum + kernel.diff p +
      kernel.diff q) ∈ DeltaList.deadlines 0 (kernel.sleepers (front ++ p :: q :: back)) := by
    rw [sleepers_append, DeltaList.deadlines_append]
    simp
  have bound := bounded _ isIn
  simp only at bound
  omega

theorem removeLater {front back : List Slot} {first prev : Slot}
    (chain : Chain kernel.link kernel.sleepQ (front ++ prev :: p :: back))
    (bounded : ∀ entry ∈ DeltaList.deadlines 0 (kernel.sleepers (front ++ prev :: p :: back)),
      entry.2 < 2 ^ 32)
    (head : kernel.sleepQ = some first) (isFirst : first ≠ p)
    (passed : searchFrom kernel p loopFuel first (kernel.proctab first).next =
      some (some prev)) :
    ∃ kernel', removeFromSleep kernel p = some kernel' ∧
      SleepQueue kernel'
        (DeltaList.delete p (kernel.sleepers (front ++ prev :: p :: back))) := by
  have prefixed : front ++ prev :: p :: back = (front ++ [prev]) ++ p :: back := by simp
  have behind : (kernel.proctab p).next = back.head? := by
    rw [prefixed] at chain
    exact chain.next_of_split.head_eq
  have unique := chain.nodup
  rw [prefixed] at unique
  obtain ⟨beforeUnique, behindUnique, apart⟩ := List.nodup_append.mp unique
  have prevNotP : p ≠ prev := fun same => apart prev (by simp) p (by simp) same.symm
  have others : ∀ i ∈ front ++ back, i ≠ prev ∧ i ≠ p := by
    intro i isIn
    rcases List.mem_append.mp isIn with inFront | inBack
    · exact ⟨(List.nodup_append.mp beforeUnique).2.2 i inFront prev (by simp),
        apart i (by simp [inFront]) p (by simp)⟩
    · exact ⟨fun same => apart prev (by simp) i (by simp [inBack]) same.symm,
        fun same => (List.nodup_cons.mp behindUnique).1 (same ▸ inBack)⟩
  cases back with
  | nil =>
      refine ⟨kernel.modify prev fun pcb => { pcb with next := none },
        by simp [removeFromSleep, head, isFirst, passed, behind],
        removeBehind chain rfl ?_ ?_ ?_⟩
      · simp [Kernel.link, behind]
      · intro i isIn
        simp [Kernel.link, (others i isIn).1]
      · intro i _
        exact congrArg BitVec.toNat (Kernel.modify_same kernel prev
          (fun pcb => { pcb with next := none }) (·.sleepdiff) rfl i)
  | cons q back =>
      have sum : kernel.diff q + kernel.diff p < 2 ^ 32 := neighbours_lt (prefixed ▸ bounded)
      refine ⟨unlinkBetween kernel prev p q, by
        simp [removeFromSleep, head, isFirst, passed, behind, unlinkBetween],
        removeBehind chain rfl ?_ ?_ ?_⟩
      · rw [unlinkBetween_link, if_neg prevNotP.symm, if_pos rfl]
        exact behind.symm
      · intro i isIn
        rw [unlinkBetween_link, if_neg (others i isIn).2, if_neg (others i isIn).1]
      · intro i _
        simp only [List.head?_cons, Option.some.injEq]
        rw [Kernel.diff, unlinkBetween_sleepdiff]
        split
        · rename_i isQ
          subst isQ
          exact BitVec.toNat_add_of_lt sum
        · rfl

theorem remove (queue : SleepQueue kernel entries)
    (bounded : ∀ entry ∈ DeltaList.deadlines 0 entries, entry.2 < 2 ^ 32)
    (member : p ∈ entries.map Prod.fst) :
    ∃ kernel', removeFromSleep kernel p = some kernel' ∧
      SleepQueue kernel' (DeltaList.delete p entries) := by
  cases entries with
  | nil => cases member
  | cons entry rest =>
      obtain ⟨first, diff⟩ := entry
      have firstDiff : kernel.diff first = diff :=
        (Prod.mk.inj (List.cons.inj queue.diffs).1).2
      subst firstDiff
      have head : kernel.sleepQ = some first := queue.chain.1
      by_cases isFirst : first = p
      · subst isFirst
        rw [DeltaList.delete, if_pos rfl]
        refine queue.removeFirst fun entry isHead => ?_
        obtain ⟨behind, rfl⟩ := List.head?_eq_some_iff.mp isHead
        have bound := bounded (entry.1, 0 + kernel.diff first + entry.2)
          (by simp [DeltaList.deadlines])
        simpa using bound
      · have enough : (rest.map Prod.fst).length < loopFuel :=
          length_lt_loopFuel (List.nodup_cons.mp queue.chain.nodup).2
        rcases searchFrom_of_chain p first queue.chain.2 enough with
          ⟨absent, _⟩ | ⟨front, prev, back, split, found⟩
        · rcases List.mem_cons.mp member with same | later
          · exact absurd same.symm isFirst
          · exact absurd later absent
        · have chain : Chain kernel.link kernel.sleepQ (front ++ prev :: p :: back) :=
            split ▸ queue.chain
          have whole : kernel.sleepers (front ++ prev :: p :: back) =
              (first, kernel.diff first) :: rest := by
            rw [← split]
            exact queue.diffs
          rw [← whole] at bounded ⊢
          exact removeLater chain bounded head isFirst found

end SleepQueue

/-! Waking. -/

def Kernel.wake (kernel : Kernel) (woken : List Slot) : Kernel :=
  { kernel with
    proctab := fun i =>
      if i ∈ woken then { kernel.proctab i with state := .ready, ret := 0 }
      else kernel.proctab i }

theorem wake_cons (kernel : Kernel) (p : Slot) (woken : List Slot) :
    (kernel.wake [p]).wake woken = kernel.wake (p :: woken) := by
  have table : ((kernel.wake [p]).wake woken).proctab = (kernel.wake (p :: woken)).proctab := by
    funext i
    by_cases isP : i = p <;> by_cases member : i ∈ woken <;> simp [Kernel.wake, isP, member]
  simp only [Kernel.wake] at table ⊢
  rw [table]

def awakened (kernel : Kernel) (p : Slot) : Kernel :=
  ready (({ kernel with sleepQ := kernel.link p }).modify p fun pcb =>
    { pcb with state := .ready, next := none, prev := none, ret := 0 }) p

theorem awakened_unlinked (kernel : Kernel) (p : Slot) :
    (awakened kernel p).unlinked = kernel.unlinked.wake [p] := by
  have written := modify_unlinked { kernel with sleepQ := kernel.link p } p
    (fun pcb => { pcb with state := .ready, next := none, prev := none, ret := 0 })
    (fun pcb => { pcb with state := .ready, ret := 0 }) rfl
  rw [awakened, ready_unlinked, written]
  have table : ((kernel.unlinked.modify p fun pcb => { pcb with state := .ready, ret := 0 }).modify
      p fun pcb => { pcb with state := .ready }).proctab = (kernel.unlinked.wake [p]).proctab := by
    funext i
    by_cases isP : i = p <;> simp [Kernel.wake, isP]
  simp only [Kernel.wake, Kernel.modify, Kernel.unlinked] at table ⊢
  rw [table]

theorem awakened_link (kernel : Kernel) {p i : Slot} (other : i ≠ p)
    (notTail : kernel.tail ≠ some i) : (awakened kernel p).link i = kernel.link i := by
  rw [awakened, ready_link, if_neg (by simpa using notTail), if_neg other]
  simp [Kernel.link, other]

theorem awakened_sleepdiff (kernel : Kernel) (p i : Slot) :
    ((awakened kernel p).proctab i).sleepdiff = (kernel.proctab i).sleepdiff := by
  rw [awakened, ready_proctab]
  exact Kernel.modify_same _ p _ (·.sleepdiff) rfl i

section Tick

variable {kernel : Kernel} {rq : List Slot} {entries : List (Slot × Nat)}

theorem awakened_appended {kernel' : Kernel} {p : Slot} {woken : List Slot}
    (apart : ∀ t ∈ kernel.tail, t ∉ p :: woken) (absent : p ∉ woken)
    (appended : Appended (awakened kernel p) kernel' woken) :
    Appended kernel kernel' (p :: woken) := by
  have last : (awakened kernel p).tail = some p := ready_tail ..
  have notTail : kernel.tail ≠ some p := fun isTail => apart p isTail (by simp)
  have link : ∀ i ∉ woken, i ≠ p → kernel'.link i = (awakened kernel p).link i := by
    intro i notIn other
    refine appended.others i notIn (Or.inl ?_)
    rw [last, ne_eq, Option.some.injEq]
    exact fun same => other same.symm
  have behind : Chain kernel'.link (kernel'.link p) woken := by
    rcases eq_or_ne woken [] with rfl | more
    · rw [appended.others p absent (Or.inr rfl), awakened, ready_link, if_neg (by simpa using notTail),
        if_pos rfl]
      exact seg_nil.mpr rfl
    · have chain := appended.chain more
      rwa [last] at chain
  have head : kernel'.head = if kernel.tail = none then some p else kernel.head := by
    rw [appended.head (Or.inl (by simp [last])), awakened, ready_head]
    rfl
  refine ⟨?_, fun _ => ⟨?_, behind⟩, ?_, ?_⟩
  · rw [appended.tail, last]
    cases woken <;> simp [List.getLast?_cons]
  · cases isTail : kernel.tail with
    | none =>
        rw [isTail, if_pos rfl] at head
        exact head
    | some t =>
        have notIn := apart t isTail
        rw [List.mem_cons, not_or] at notIn
        rw [Option.elim_some, link t notIn.2 notIn.1, awakened, ready_link]
        exact if_pos isTail
  · rintro (more | none)
    · rw [head, if_neg more]
    · cases none
  · rintro i notIn (notLast | none)
    · rw [List.mem_cons, not_or] at notIn
      rw [link i notIn.2 notIn.1, awakened_link kernel notIn.1 notLast]
    · cases none

theorem awakened_sleep {p : Slot} {diff : Nat}
    (sleeping : SleepQueue kernel ((p, diff) :: entries))
    (apart : ∀ t ∈ kernel.tail, t ∉ p :: entries.map Prod.fst) :
    SleepQueue (awakened kernel p) entries := by
  have unique := List.nodup_cons.mp sleeping.chain.nodup
  constructor
  · rw [awakened, ready_sleepQ]
    refine sleeping.chain.2.congr ?_
    intro i member
    refine awakened_link kernel (fun equal => unique.1 (equal ▸ member)) ?_
    intro tail
    exact apart i tail (by simp [member])
  · have diffs := sleeping.diffs
    rw [List.map_cons, sleepers_cons, List.cons.injEq] at diffs
    exact (sleepers_congr fun i _ => awakened_sleepdiff kernel p i).trans diffs.2

/-- The loop of `tick` moves the expired entries, in their order, to the ready queue. -/
theorem tickLoop_expire (sleeping : SleepQueue kernel entries)
    (apart : (DeltaList.expire entries).1 ≠ [] → ∀ t ∈ kernel.tail, t ∉ entries.map Prod.fst)
    {fuel : Nat} (enough : entries.length < fuel) :
    ∃ kernel', tickLoop fuel kernel = some kernel' ∧
      Appended kernel kernel' (DeltaList.expire entries).1 ∧
      SleepQueue kernel' (DeltaList.expire entries).2 ∧
      kernel'.unlinked = kernel.unlinked.wake (DeltaList.expire entries).1 := by
  induction entries generalizing kernel fuel with
  | nil =>
      cases fuel with
      | zero => simp at enough
      | succ fuel =>
          have empty : kernel.sleepQ = none := sleeping.chain
          refine ⟨kernel, by simp [tickLoop, empty], Appended.refl, sleeping, ?_⟩
          simp [DeltaList.expire, Kernel.wake]
  | cons entry rest ih =>
      obtain ⟨p, diff⟩ := entry
      cases fuel with
      | zero => simp at enough
      | succ fuel =>
          have head : kernel.sleepQ = some p := sleeping.chain.1
          have diffs := sleeping.diffs
          rw [List.map_cons, sleepers_cons, List.cons.injEq, Prod.mk.injEq] at diffs
          have sameDiff : kernel.diff p = diff := diffs.1.2
          by_cases expired : diff = 0
          · have unique := List.nodup_cons.mp sleeping.chain.nodup
            have zero : (kernel.proctab p).sleepdiff = 0 :=
              BitVec.eq_of_toNat_eq (by simpa [Kernel.diff, expired] using sameDiff)
            have apart := apart (by simp [DeltaList.expire, expired])
            have restApart : (DeltaList.expire rest).1 ≠ [] →
                ∀ t ∈ (awakened kernel p).tail, t ∉ rest.map Prod.fst := by
              intro _ t isTail
              have isP : p = t := Option.some.inj isTail
              exact isP ▸ unique.1
            obtain ⟨kernel', looped, appended, sleeping', rest'⟩ :=
              ih (awakened_sleep sleeping apart) restApart (by simpa using enough)
            have wokenIn : ∀ i ∈ (DeltaList.expire rest).1, i ∈ rest.map Prod.fst := by
              intro i isIn
              rw [DeltaList.expire_append]
              exact List.mem_append_left _ isIn
            have apart' : ∀ t ∈ kernel.tail, t ∉ p :: (DeltaList.expire rest).1 := by
              intro t isTail isIn
              refine apart t isTail (List.mem_cons.mpr ?_)
              exact (List.mem_cons.mp isIn).imp id (wokenIn t)
            have absent : p ∉ (DeltaList.expire rest).1 := fun isIn => unique.1 (wokenIn p isIn)
            refine ⟨kernel', ?_, ?_, ?_, ?_⟩
            · simp only [tickLoop, head, zero]
              exact looped
            · simpa [DeltaList.expire, expired] using awakened_appended apart' absent appended
            · simpa [DeltaList.expire, expired] using sleeping'
            · rw [rest', awakened_unlinked, wake_cons]
              simp [DeltaList.expire, expired]
          · have more : (kernel.proctab p).sleepdiff ≠ 0 := by
              intro zero
              rw [Kernel.diff, zero] at sameDiff
              exact expired sameDiff.symm
            refine ⟨kernel, by simp only [tickLoop, head, if_pos more], ?_, ?_, ?_⟩
            · simpa [DeltaList.expire, expired] using Appended.refl
            · simpa [DeltaList.expire, expired] using sleeping
            · simp [DeltaList.expire, expired, Kernel.wake]

/-- What `sleepdiff--` leaves of a difference: one that is used up already wraps around. -/
def countDown (diff : Nat) : Nat := if diff = 0 then 2 ^ 32 - 1 else diff - 1

def tickEntries : List (Slot × Nat) → List Slot × List (Slot × Nat)
  | [] => ([], [])
  | (p, diff) :: rest => DeltaList.expire ((p, countDown diff) :: rest)

theorem tickEntries_pending (pending : DeltaList.Pending entries) :
    tickEntries entries = DeltaList.tick entries := by
  cases entries with
  | nil => rfl
  | cons entry rest =>
      obtain ⟨p, diff⟩ := entry
      have positive : diff ≠ 0 := Nat.ne_of_gt pending
      simp [tickEntries, DeltaList.tick, countDown, positive]

theorem tickEntries_append (entries : List (Slot × Nat)) : entries.map Prod.fst =
    (tickEntries entries).1 ++ (tickEntries entries).2.map Prod.fst := by
  cases entries with
  | nil => rfl
  | cons entry rest => exact DeltaList.expire_append ((entry.1, countDown entry.2) :: rest)

theorem countDown_sleepQueue {p : Slot} {diff : Nat}
    (sleeping : SleepQueue kernel ((p, diff) :: entries)) :
    SleepQueue (kernel.modify p fun pcb => { pcb with sleepdiff := pcb.sleepdiff - 1 })
      ((p, countDown diff) :: entries) := by
  have unique := List.nodup_cons.mp sleeping.chain.nodup
  have diffs := sleeping.diffs
  rw [List.map_cons, sleepers_cons, List.cons.injEq, Prod.mk.injEq] at diffs
  obtain ⟨⟨_, firstDiff⟩, restDiffs⟩ := diffs
  constructor
  · exact sleeping.chain.congr fun i _ => Kernel.modify_same _ p _ (·.next) rfl i
  · have restSame : (kernel.modify p fun pcb =>
        { pcb with sleepdiff := pcb.sleepdiff - 1 }).sleepers (entries.map Prod.fst) = entries := by
      refine (sleepers_congr ?_).trans restDiffs
      intro i member
      have other : i ≠ p := fun equal => unique.1 (equal ▸ member)
      simp [other]
    have counted : ((kernel.proctab p).sleepdiff - 1).toNat = countDown diff := by
      rw [← firstDiff, Kernel.diff, countDown]
      by_cases zero : (kernel.proctab p).sleepdiff = 0
      · simp [zero]
      · have positive : (kernel.proctab p).sleepdiff.toNat ≠ 0 := by
          intro equal
          exact zero (BitVec.eq_of_toNat_eq (by simpa using equal))
        rw [if_neg positive]
        bv_omega
    rw [List.map_cons, sleepers_cons, restSame, Kernel.diff, Kernel.modify_proctab, if_pos rfl,
      counted]

theorem tick_appends (sleeping : SleepQueue kernel entries)
    (apart : (tickEntries entries).1 ≠ [] → ∀ t ∈ kernel.tail, t ∉ entries.map Prod.fst) :
    ∃ kernel', tick kernel = some kernel' ∧ Appended kernel kernel' (tickEntries entries).1 ∧
      SleepQueue kernel' (tickEntries entries).2 ∧
      kernel'.unlinked = kernel.unlinked.wake (tickEntries entries).1 := by
  cases entries with
  | nil =>
      have empty : kernel.sleepQ = none := sleeping.chain
      refine ⟨kernel, by simp only [tick, empty], Appended.refl, sleeping, ?_⟩
      simp [tickEntries, Kernel.wake]
  | cons entry rest =>
      obtain ⟨p, diff⟩ := entry
      have head : kernel.sleepQ = some p := sleeping.chain.1
      have enough : ((p, countDown diff) :: rest).length < loopFuel + 1 := by
        have bound := length_lt_loopFuel sleeping.chain.nodup
        rw [List.length_map, List.length_cons] at bound
        rw [List.length_cons]
        omega
      obtain ⟨kernel', looped, appended, sleeping', rest'⟩ :=
        tickLoop_expire (countDown_sleepQueue sleeping) apart enough
      have same : ∀ i, (kernel.modify p fun pcb =>
          { pcb with sleepdiff := pcb.sleepdiff - 1 }).link i = kernel.link i :=
        fun i => Kernel.modify_same _ p _ (·.next) rfl i
      refine ⟨kernel', by simp only [tick, head, looped], ?_, sleeping', ?_⟩
      · exact ⟨appended.tail, appended.chain, appended.head,
          fun i notIn other => (appended.others i notIn other).trans (same i)⟩
      · rw [rest', modify_links kernel p (fun pcb => { pcb with sleepdiff := pcb.sleepdiff - 1 })
          fun _ => rfl]
        rfl

theorem tick_spec (queue : ReadyQueue kernel rq) (sleeping : SleepQueue kernel entries)
    (apart : ∀ i ∈ rq, i ∉ entries.map Prod.fst) :
    ∃ kernel', tick kernel = some kernel' ∧
      ReadyQueue kernel' (rq ++ (tickEntries entries).1) ∧
      SleepQueue kernel' (tickEntries entries).2 ∧
      kernel'.unlinked = kernel.unlinked.wake (tickEntries entries).1 := by
  have notAsleep : ∀ t ∈ kernel.tail, t ∉ entries.map Prod.fst := by
    intro t isTail
    rw [queue.last] at isTail
    exact apart t (List.mem_of_getLast? isTail)
  obtain ⟨kernel', ticked, appended, sleeping', rest⟩ := tick_appends sleeping fun _ => notAsleep
  refine ⟨kernel', ticked, appended.readyQueue queue ?_, sleeping', rest⟩
  intro i queued isWoken
  refine apart i queued ?_
  rw [tickEntries_append]
  exact List.mem_append_left _ isWoken

end Tick

end XerosKernel
