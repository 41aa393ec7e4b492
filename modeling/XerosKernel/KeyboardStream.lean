import Mathlib.Data.List.GetD
import XerosKernel.Execution
import XerosKernel.LocalCalls
import XerosKernel.ReadyQueue
import XerosKernel.Runs

/-!
The stream of characters through the four slots of `kbdbuff`. Reading takes the characters
from the front of the buffer in their order; what an interrupt adds to the buffer is the
`eof` character, whatever was typed.
-/

namespace XerosKernel

open Execution

def unread (kbdbuff : Fin 4 → Byte) : List Byte :=
  ((List.finRange 4).map kbdbuff).filter (· ≠ 0)

def emptied (before after : Fin 4 → Byte) : List Byte :=
  ((List.finRange 4).filter fun i => before i ≠ 0 ∧ after i = 0).map before

def Full (kbd : Keyboard) : Prop := ∀ i, kbd.kbdbuff i ≠ 0

instance (kbd : Keyboard) : Decidable (Full kbd) := inferInstanceAs (Decidable (∀ _, _))

def decoded (kbd : Keyboard) (ports : Ports) : Option Word :=
  if ports.port64 &&& 0x01 ≠ 0 then some (kbtoa kbd.state ports.port60).1 else none

/-- What a keyboard that stores its characters adds to the stream at an interrupt. -/
def typed (kbd : Keyboard) (ports : Ports) : List Byte :=
  match decoded kbd ports with
  | none => []
  | some ch => if ch = NOCHAR ∨ ch = 0x09 ∨ Full kbd then [] else [ch.truncate 8]

/-- An interrupt at which the buffer changes as it should: there is no data, or the `eof`
character, or a tab, or no room. -/
def Decodes (kbd : Keyboard) (ports : Ports) : Prop :=
  ∀ ch ∈ decoded kbd ports, ch = kbd.eof ∨ ch = 0x09 ∨ Full kbd

instance (kbd : Keyboard) (ports : Ports) : Decidable (Decodes kbd ports) :=
  Option.decidableForallMem _

/-! The slots. -/

theorem fillHole_full {kbdbuff : Fin 4 → Byte} (full : ∀ i, kbdbuff i ≠ 0) (value : Byte) :
    fillHole kbdbuff value = kbdbuff := by
  have none : (List.finRange 4).find? (fun i => kbdbuff i = 0) = none := by
    simpa using full
  rw [fillHole, none]

theorem unread_fillHole {kbdbuff : Fin 4 → Byte} {value : Byte} (stored : value ≠ 0)
    (room : ¬ ∀ i, kbdbuff i ≠ 0) :
    ∃ front back, unread kbdbuff = front ++ back ∧
      unread (fillHole kbdbuff value) = front ++ value :: back := by
  cases found : (List.finRange 4).find? fun i => kbdbuff i = 0 with
  | none => exact absurd (by simpa using found) room
  | some hole =>
      obtain ⟨empty, front, back, split, _⟩ := List.find?_eq_some_iff_append.mp found
      have nodup := List.nodup_finRange 4
      rw [split, List.nodup_middle, List.nodup_cons, List.mem_append] at nodup
      have same : ∀ slots : List (Fin 4), hole ∉ slots →
          slots.map (fun i => if i = hole then value else kbdbuff i) = slots.map kbdbuff := by
        intro slots notIn
        refine List.map_congr_left fun i isIn => if_neg ?_
        rintro rfl
        exact notIn isIn
      refine ⟨(front.map kbdbuff).filter (· ≠ 0), (back.map kbdbuff).filter (· ≠ 0), ?_, ?_⟩
      · have zero : kbdbuff hole = 0 := by simpa using empty
        simp [unread, split, zero]
      · rw [fillHole, found, unread, split, List.map_append, List.map_cons,
          same front fun isIn => nodup.1 (Or.inl isIn),
          same back fun isIn => nodup.1 (Or.inr isIn), List.filter_append, List.filter_cons]
        simp only [if_true, decide_eq_true stored]

theorem unread_clearSlot {kbd : Keyboard} {i : Fin 4} (first : firstUnread kbd = some i) :
    unread kbd.kbdbuff = kbd.kbdbuff i :: unread (kbd.clearSlot i).kbdbuff := by
  obtain ⟨held, front, back, split, empty⟩ := List.find?_eq_some_iff_append.mp first
  have nodup := List.nodup_finRange 4
  rw [split, List.nodup_middle, List.nodup_cons, List.mem_append] at nodup
  have none : ∀ kbdbuff : Fin 4 → Byte, (∀ j ∈ front, kbdbuff j = 0) →
      (front.map kbdbuff).filter (· ≠ 0) = [] := by
    intro kbdbuff zero
    simpa using zero
  have before : ∀ j ∈ front, kbd.kbdbuff j = 0 := by simpa using empty
  have after : ∀ j ∈ front, (kbd.clearSlot i).kbdbuff j = 0 := by
    intro j isIn
    simp [Keyboard.clearSlot, before j isIn]
  have behind : back.map (kbd.clearSlot i).kbdbuff = back.map kbd.kbdbuff := by
    refine List.map_congr_left fun j isIn => if_neg ?_
    rintro rfl
    exact nodup.1 (Or.inr isIn)
  have cleared : (kbd.clearSlot i).kbdbuff i = 0 := if_pos rfl
  rw [unread, unread, split, List.map_append, List.map_append, List.map_cons, List.map_cons,
    List.filter_append, List.filter_append, none _ before, none _ after, behind,
    List.filter_cons, List.filter_cons, cleared]
  simp only [held, if_true, List.nil_append, ne_eq, not_true_eq_false, decide_false,
    Bool.false_eq_true, if_false]

theorem emptied_clearSlot {kbd : Keyboard} {i : Fin 4} (held : kbd.kbdbuff i ≠ 0) :
    emptied kbd.kbdbuff (kbd.clearSlot i).kbdbuff = [kbd.kbdbuff i] := by
  have only : ((List.finRange 4).filter fun j =>
      kbd.kbdbuff j ≠ 0 ∧ (kbd.clearSlot i).kbdbuff j = 0) =
      (List.finRange 4).filter fun j => j = i := by
    refine List.filter_congr fun j _ => ?_
    by_cases isI : j = i
    · simpa [Keyboard.clearSlot, isI] using held
    · simp [Keyboard.clearSlot, isI]
  rw [emptied, only, List.filter_eq, List.count_eq_one_of_mem (List.nodup_finRange 4)
    (List.mem_finRange i)]
  rfl

theorem emptied_self (kbdbuff : Fin 4 → Byte) : emptied kbdbuff kbdbuff = [] := by
  rw [emptied, List.filter_eq_nil_iff.mpr (by simp), List.map_nil]

/-! The consumer. -/

theorem kbdRead_slots (kernel : Kernel) (p : Slot) (fd buff : Word) :
    (kbdRead kernel p fd buff).2.kbd.eof = kernel.kbd.eof ∧
      ((kbdRead kernel p fd buff).2.kbd.kbdbuff = kernel.kbd.kbdbuff ∨
        ∃ i, firstUnread kernel.kbd = some i ∧
          (kbdRead kernel p fd buff).2.kbd.kbdbuff = (kernel.kbd.clearSlot i).kbdbuff) := by
  rw [kbdRead_eq]
  cases found : firstUnread kernel.kbd with
  | none => exact ⟨rfl, Or.inl rfl⟩
  | some i =>
      simp only
      split
      · rw [ready_kbd]
        exact ⟨rfl, Or.inr ⟨i, rfl, rfl⟩⟩
      · split
        · exact ⟨rfl, Or.inl rfl⟩
        · exact ⟨rfl, Or.inr ⟨i, rfl, rfl⟩⟩

theorem kbdRead_front (kernel : Kernel) (p : Slot) (fd buff : Word) :
    emptied kernel.kbd.kbdbuff (kbdRead kernel p fd buff).2.kbd.kbdbuff ++
      unread (kbdRead kernel p fd buff).2.kbd.kbdbuff = unread kernel.kbd.kbdbuff := by
  rcases (kbdRead_slots kernel p fd buff).2 with same | ⟨i, first, cleared⟩
  · rw [same, emptied_self, List.nil_append]
  · have held : kernel.kbd.kbdbuff i ≠ 0 := by simpa using List.find?_some first
    rw [cleared, emptied_clearSlot held, unread_clearSlot first]
    rfl

/-! The producer. -/

def Stores (kbd : Keyboard) (ports : Ports) : Prop :=
  ∃ ch ∈ decoded kbd ports, ch = kbd.eof ∨ ch ≠ 0x09

instance (kbd : Keyboard) (ports : Ports) : Decidable (Stores kbd ports) :=
  Option.decidableExistsMem _

theorem stores_iff {kbd : Keyboard} {ports : Ports} {ch : Word}
    (ascii : decoded kbd ports = some ch) : Stores kbd ports ↔ ch = kbd.eof ∨ ch ≠ 0x09 := by
  rw [Stores, ascii]
  simp only [Option.mem_def, Option.some.injEq, exists_eq_left']

theorem kbdHandler_slots (kernel : Kernel) (p : Slot) (ports : Ports) :
    (kbdHandler kernel p ports).kbd.eof = kernel.kbd.eof ∧
      (kbdHandler kernel p ports).kbd.kbdbuff = if Stores kernel.kbd ports then
        fillHole kernel.kbd.kbdbuff (kernel.kbd.eof.truncate 8) else kernel.kbd.kbdbuff := by
  by_cases data : ports.port64 &&& 0x01 ≠ 0
  · have ascii : decoded kernel.kbd ports = some (kbtoa kernel.kbd.state ports.port60).1 :=
      if_pos data
    have stores := stores_iff ascii
    rw [kbdHandler, if_pos data]
    simp only
    split
    · rename_i eof
      exact ⟨rfl, (if_pos (stores.mpr (Or.inl eof))).symm⟩
    · rename_i other
      split
      · rename_i tab
        refine ⟨rfl, (if_neg fun stored => ?_).symm⟩
        rcases stores.mp stored with eof | notTab
        · exact other eof
        · exact notTab tab
      · rename_i notTab
        exact ⟨rfl, (if_pos (stores.mpr (Or.inr notTab))).symm⟩
  · have nothing : decoded kernel.kbd ports = none := if_neg data
    rw [kbdHandler, if_neg data, if_neg (by simp [Stores, nothing])]
    exact ⟨rfl, rfl⟩

/-! The decoder. -/

theorem getD_lt {table : List Word} (small : (table.all fun ch => decide (ch.toNat < 128)) = true)
    (index : Nat) : (table.getD index 0).toNat < 128 := by
  rw [List.all_eq_true] at small
  rcases Nat.lt_or_ge index table.length with inside | outside
  · rw [List.getD_eq_getElem _ _ inside]
    exact of_decide_eq_true (small _ (List.getElem_mem inside))
  · rw [List.getD_eq_default _ _ outside]
    decide

theorem kbcode_lt (index : Nat) : (kbcode.getD index 0).toNat < 128 :=
  getD_lt (by decide +kernel) index

theorem kbshift_lt (index : Nat) : (kbshift.getD index 0).toNat < 128 :=
  getD_lt (by decide +kernel) index

theorem kbctl_lt (index : Nat) : (kbctl.getD index 0).toNat < 128 :=
  getD_lt (by decide +kernel) index

def KeyChar (decoded : Word) : Prop :=
  ∃ ch : Word, (ch.toNat < 128 ∨ ch = NOCHAR) ∧ (decoded = ch ∨ decoded = ch + 0x80)

theorem noChar_keyChar : KeyChar NOCHAR := ⟨NOCHAR, Or.inr rfl, Or.inl rfl⟩

theorem kbtoaChar_keyChar (state : Word) (code : Byte) : KeyChar (kbtoaChar state code) := by
  have plain : ∀ caps : Bool,
      ((if caps then kbshift else kbcode).getD code.toNat 0).toNat < 128 := by
    intro caps
    cases caps
    · exact kbcode_lt _
    · exact kbshift_lt _
  have shifted : ∀ caps : Bool,
      ((if caps then kbcode else kbshift).getD code.toNat 0).toNat < 128 := by
    intro caps
    cases caps
    · exact kbshift_lt _
    · exact kbcode_lt _
  simp only [kbtoaChar]
  split
  · exact noChar_keyChar
  · split
    · exact noChar_keyChar
    · split
      on_goal 1 => refine ⟨_, ?_, Or.inr rfl⟩
      on_goal 2 => refine ⟨_, ?_, Or.inl rfl⟩
      all_goals
        split
        · exact Or.inl (kbctl_lt _)
        · split
          · exact Or.inl (shifted _)
          · split
            · exact Or.inl (plain _)
            · exact Or.inr rfl

theorem kbtoa_keyChar (state : Word) (code : Byte) : KeyChar (kbtoa state code).1 := by
  unfold kbtoa
  repeat' split
  all_goals first
    | exact kbtoaChar_keyChar state code
    | exact noChar_keyChar

theorem kbtoa_eof {state : Word} {code : Byte}
    (byte : (kbtoa state code).1.truncate 8 = (4 : Byte)) : (kbtoa state code).1 = 4 := by
  obtain ⟨ch, small, decoded⟩ := kbtoa_keyChar state code
  have low : (kbtoa state code).1.toNat % 256 = 4 := by
    have low := congrArg BitVec.toNat byte
    rwa [BitVec.truncate_eq_setWidth, BitVec.toNat_setWidth] at low
  have high : ch.toNat < 128 ∨ ch.toNat = 256 := by
    rcases small with small | rfl
    · exact Or.inl small
    · exact Or.inr rfl
  apply BitVec.eq_of_toNat_eq
  rcases decoded with plain | withMeta
  · rw [plain] at low ⊢
    change ch.toNat = 4
    omega
  · have sum : (kbtoa state code).1.toNat = ch.toNat + 128 := by
      rw [withMeta, BitVec.toNat_add]
      change (ch.toNat + 128) % 4294967296 = _
      omega
    omega

def stored (kbd : Keyboard) (ports : Ports) : List Byte :=
  if Stores kbd ports ∧ ¬ Full kbd then [kbd.eof.truncate 8] else []

theorem stored_nil {kbd : Keyboard} {ports : Ports} (nothing : decoded kbd ports = none) :
    stored kbd ports = [] := by
  refine if_neg fun both => ?_
  obtain ⟨ch, isCh, _⟩ := both.1
  rw [nothing] at isCh
  cases isCh

theorem decodes_iff {kbd : Keyboard} {ports : Ports} {ch : Word}
    (ascii : decoded kbd ports = some ch) :
    Decodes kbd ports ↔ ch = kbd.eof ∨ ch = 0x09 ∨ Full kbd := by
  rw [Decodes, ascii]
  simp only [Option.mem_def, Option.some.injEq, forall_eq']

theorem stored_typed {kbd : Keyboard} (eof : kbd.eof = 4) (ports : Ports) :
    (typed kbd ports).length ≤ (stored kbd ports).length ∧
      (stored kbd ports = typed kbd ports ↔ Decodes kbd ports) := by
  cases ascii : decoded kbd ports with
  | none =>
      rw [stored_nil ascii, typed, Decodes, ascii]
      simp
  | some ch =>
      have typedEq : typed kbd ports =
          if ch = NOCHAR ∨ ch = 0x09 ∨ Full kbd then [] else [ch.truncate 8] := by
        rw [typed, ascii]
      have storedEq : stored kbd ports =
          if (ch = 4 ∨ ch ≠ 0x09) ∧ ¬ Full kbd then [4] else [] := by
        simp only [stored, stores_iff ascii, eof]
        rfl
      rw [typedEq, storedEq, decodes_iff ascii, eof]
      by_cases full : Full kbd
      · simp [full]
      · by_cases tab : ch = 0x09
        · subst tab
          simp [NOCHAR]
        · by_cases none : ch = NOCHAR
          · subst none
            simp [full, NOCHAR]
          · have byte : ch.truncate 8 = (4 : Byte) ↔ ch = 4 := by
              constructor
              · intro byte
                have isCh : (kbtoa kbd.state ports.port60).1 = ch := by
                  unfold decoded at ascii
                  split at ascii
                  · exact Option.some.inj ascii
                  · cases ascii
                rw [← isCh] at byte ⊢
                exact kbtoa_eof byte
              · rintro rfl
                rfl
            have other : ¬ (ch = NOCHAR ∨ ch = 0x09 ∨ Full kbd) := by simp only [none, tab, full,
              or_false, not_false_eq_true]
            rw [if_neg other, if_pos ⟨Or.inr tab, full⟩]
            refine ⟨Nat.le_refl 1, ?_⟩
            simp only [List.cons.injEq, and_true, tab, full, or_false]
            exact eq_comm.trans byte

theorem append_cons_of_same {α : Type} {value : α} {front back : List α}
    (same : ∀ ch ∈ front ++ back, ch = value) :
    front ++ value :: back = front ++ back ++ [value] := by
  have first : front ++ value :: back = List.replicate (front.length + back.length + 1) value := by
    refine List.eq_replicate_iff.mpr ⟨?_, fun ch isIn => ?_⟩
    · rw [List.length_append, List.length_cons, Nat.add_assoc]
    · rcases List.mem_append.mp isIn with inFront | inBack
      · exact same ch (List.mem_append_left _ inFront)
      · rcases List.mem_cons.mp inBack with isValue | inBack
        · exact isValue
        · exact same ch (List.mem_append_right _ inBack)
  have second : front ++ back ++ [value] =
      List.replicate (front.length + back.length + 1) value := by
    refine List.eq_replicate_iff.mpr ⟨by simp [Nat.add_assoc], fun ch isIn => ?_⟩
    rcases List.mem_append.mp isIn with isIn | isIn
    · exact same ch isIn
    · exact List.mem_singleton.mp isIn
  exact first.trans second.symm

theorem kbdHandler_unread {kernel : Kernel} (eof : kernel.kbd.eof = 4)
    (held : ∀ ch ∈ unread kernel.kbd.kbdbuff, ch = 4) (p : Slot) (ports : Ports) :
    unread (kbdHandler kernel p ports).kbd.kbdbuff =
      unread kernel.kbd.kbdbuff ++ stored kernel.kbd ports := by
  rw [(kbdHandler_slots kernel p ports).2, stored]
  by_cases stores : Stores kernel.kbd ports
  · by_cases full : Full kernel.kbd
    · rw [if_pos stores, fillHole_full full, if_neg fun both => both.2 full, List.append_nil]
    · have value : kernel.kbd.eof.truncate 8 = (4 : Byte) := by rw [eof]; rfl
      rw [if_pos stores, if_pos ⟨stores, full⟩, value]
      have nonzero : (4 : Byte) ≠ 0 := by decide
      obtain ⟨front, back, before, after⟩ := unread_fillHole nonzero full
      rw [before] at held
      rw [before, after, append_cons_of_same held]
  · rw [if_neg stores, if_neg fun both => stores both.1, List.append_nil]

/-! Runs. -/

inductive KbdEvent
  | interrupt (p : Slot) (ports : Ports)
  | read (p : Slot) (fd buff : Word)

/-- The kernel with the characters typed so far and those that reads took from the buffer. -/
structure KbdStream where
  kernel : Kernel
  typed : List Byte
  taken : List Byte

namespace KbdStream

def after (stream : KbdStream) : KbdEvent → KbdStream
  | .interrupt p ports =>
      { stream with
        kernel := kbdHandler stream.kernel p ports
        typed := stream.typed ++ XerosKernel.typed stream.kernel.kbd ports }
  | .read p fd buff =>
      let kernel := (kbdRead stream.kernel p fd buff).2
      { stream with
        kernel := kernel
        taken := stream.taken ++ emptied stream.kernel.kbd.kbdbuff kernel.kbd.kbdbuff }

def step (stream : KbdStream) (event : KbdEvent) : Option KbdStream := some (stream.after event)

/-- What has been read, followed by what is held, is what was typed. -/
def Fifo (stream : KbdStream) : Prop :=
  stream.taken ++ unread stream.kernel.kbd.kbdbuff = stream.typed

instance (stream : KbdStream) : Decidable (Fifo stream) := inferInstanceAs (Decidable (_ = _))

def Accepts (stream : KbdStream) : KbdEvent → Prop
  | .interrupt _ ports => Decodes stream.kernel.kbd ports
  | .read _ _ _ => True

instance (stream : KbdStream) : (event : KbdEvent) → Decidable (Accepts stream event)
  | .interrupt _ ports => inferInstanceAs (Decidable (Decodes stream.kernel.kbd ports))
  | .read _ _ _ => isTrue trivial

structure Stored (stream : KbdStream) : Prop where
  eof : stream.kernel.kbd.eof = 4
  held : ∀ ch ∈ unread stream.kernel.kbd.kbdbuff, ch = 4
  enough : stream.typed.length ≤
    (stream.taken ++ unread stream.kernel.kbd.kbdbuff).length

variable {stream : KbdStream}

theorem read_step (stored : Stored stream) (p : Slot) (fd buff : Word) :
    Stored (stream.after (.read p fd buff)) ∧
      (Fifo (stream.after (.read p fd buff)) ↔ Fifo stream) := by
  have front := kbdRead_front stream.kernel p fd buff
  have kept := (kbdRead_slots stream.kernel p fd buff).1
  have same : (stream.after (.read p fd buff)).taken ++
      unread (stream.after (.read p fd buff)).kernel.kbd.kbdbuff =
        stream.taken ++ unread stream.kernel.kbd.kbdbuff := by
    rw [← front, ← List.append_assoc]
    rfl
  refine ⟨⟨kept.trans stored.eof, fun ch isIn => stored.held ch ?_, ?_⟩, ?_⟩
  · rw [← front]
    exact List.mem_append_right _ isIn
  · rw [same]
    exact stored.enough
  · rw [Fifo, same]
    rfl

theorem interrupt_step (held : Stored stream) (p : Slot) (ports : Ports) :
    Stored (stream.after (.interrupt p ports)) ∧
      (Fifo (stream.after (.interrupt p ports)) ↔
        Fifo stream ∧ Decodes stream.kernel.kbd ports) := by
  have eof := held.eof
  have grows := kbdHandler_unread eof held.held p ports
  obtain ⟨shorter, same⟩ := stored_typed eof ports
  have enough := held.enough
  refine ⟨⟨(kbdHandler_slots _ p ports).1.trans eof, fun ch isIn => ?_, ?_⟩, ?_⟩
  · simp only [after, grows, List.mem_append] at isIn
    rcases isIn with old | new
    · exact held.held ch old
    · rw [stored] at new
      split at new
      · rw [List.mem_singleton.mp new, eof]
        rfl
      · cases new
  · simp only [after, grows, List.length_append] at enough ⊢
    omega
  · simp only [Fifo, after, grows, ← same, ← List.append_assoc]
    constructor
    · intro whole
      have lengths := congrArg List.length whole
      simp only [List.length_append] at lengths enough
      exact List.append_inj whole (by simp only [List.length_append]; omega)
    · rintro ⟨front, back⟩
      rw [front, back]

theorem step_spec (event : KbdEvent) (held : Stored stream) :
    Stored (stream.after event) ∧
      (Fifo (stream.after event) ↔ Fifo stream ∧ Accepts stream event) := by
  cases event with
  | interrupt p ports => exact interrupt_step held p ports
  | read p fd buff =>
      obtain ⟨held', same⟩ := read_step held p fd buff
      exact ⟨held', same.trans (and_iff_left trivial).symm⟩

end KbdStream

open KbdStream in
/-- The keyboard is first in, first out in the runs whose interrupts bring no data, the `eof`
character, a tab or a character for which there is no room, and in no others. -/
theorem keyboard_fifo {kernel : Kernel} {events : List KbdEvent} {final : KbdStream}
    (eof : kernel.kbd.eof = 4) (empty : ∀ i, kernel.kbd.kbdbuff i = 0)
    (reached : run step ⟨kernel, [], []⟩ events = some final) :
    Fifo final ↔ Along step Accepts ⟨kernel, [], []⟩ events := by
  have nothing : unread kernel.kbd.kbdbuff = [] := by
    simp [unread, empty]
  have start : Stored ⟨kernel, [], []⟩ :=
    ⟨eof, by simp [nothing], Nat.zero_le _⟩
  have kept : ∀ stream event after, Stored stream → step stream event = some after →
      Stored after ∧ (Fifo after ↔ Fifo stream ∧ Accepts stream event) := by
    rintro stream event after held ⟨⟩
    exact step_spec event held
  rw [run_iff_along kept start reached]
  exact and_iff_right (by simp [Fifo, nothing])

def controlKernel : Kernel :=
  { dispatchinit sampleEnv (kmeminit sampleEnv) with kbd := { state := INCTL } }

theorem keyboard_fifo_eof : ∃ final, KbdStream.Fifo final ∧ final.taken = [4] ∧
    run KbdStream.step ⟨controlKernel, [], []⟩
      [.interrupt 2 ⟨1, 0x20⟩, .read 2 0 0x80020] = some final := by
  have eof : controlKernel.kbd.eof = 4 := rfl
  have empty : ∀ i, controlKernel.kbd.kbdbuff i = 0 := fun _ => rfl
  have reached : run KbdStream.step ⟨controlKernel, [], []⟩
      [.interrupt 2 ⟨1, 0x20⟩, .read 2 0 0x80020] = some _ := rfl
  have accepted : Along KbdStream.step KbdStream.Accepts ⟨controlKernel, [], []⟩
      [.interrupt 2 ⟨1, 0x20⟩, .read 2 0 0x80020] := by decide +kernel
  refine ⟨_, (keyboard_fifo eof empty reached).mpr accepted, ?_, reached⟩
  decide +kernel

/-- The key of the letter a, pressed and released from start-up on: two reads take two `eof`
characters. -/
theorem keyboard_fifo_broken : ∃ final, ¬ KbdStream.Fifo final ∧ final.typed = [97] ∧
    final.taken = [4, 4] ∧
    run KbdStream.step ⟨dispatchinit sampleEnv (kmeminit sampleEnv), [], []⟩
      [.interrupt 2 ⟨1, 0x1e⟩, .interrupt 2 ⟨1, 0x9e⟩, .read 2 0 0x80020,
        .read 2 0 0x80021] = some final := by
  refine ⟨_, ?_, ?_, ?_, rfl⟩
  all_goals decide +kernel

end XerosKernel
