import Mathlib.Algebra.Group.Nat.Defs
import Mathlib.Data.List.Basic

/-!
A small part of the IA-32: the registers, a stack in memory, and the instructions by which an
interrupt handler leaves one stack for another. Memory is any type of which words can be read
and written; a program may name variables outside of it.
-/

namespace Ia32

abbrev Word := BitVec 32

def Apart (a : Word) (n : Nat) (b : Word) (m : Nat) : Prop :=
  n ≤ (b - a).toNat ∧ m ≤ (a - b).toNat

instance (a : Word) (n : Nat) (b : Word) (m : Nat) : Decidable (Apart a n b m) :=
  inferInstanceAs (Decidable (_ ∧ _))

namespace Apart

variable {a b i : Word} {n m k : Nat}

theorem symm (apart : Apart a n b m) : Apart b m a n := ⟨apart.2, apart.1⟩

theorem inside (apart : Apart a n b m) (positive : 0 < k) (fits : i.toNat + k ≤ n) :
    Apart (a + i) k b m := by
  obtain ⟨behind, before⟩ := apart
  constructor
  · rw [BitVec.toNat_sub, BitVec.toNat_add]
    rw [BitVec.toNat_sub] at behind before
    omega
  · rw [BitVec.toNat_sub, BitVec.toNat_add]
    rw [BitVec.toNat_sub] at behind before
    omega

theorem first (apart : Apart a n b m) (fits : k ≤ n) : Apart a k b m := by
  obtain ⟨behind, before⟩ := apart
  constructor <;> omega

theorem next (a : Word) (few : 4 * (n + 1) < 2 ^ 32) : Apart a 4 (a + 4) (4 * n) := by
  constructor
  · bv_omega
  · bv_omega

end Apart

class WordMemory (M : Type) where
  load : M → Word → Word
  store : M → Word → Word → M
  load_store (mem : M) (addr value : Word) : load (store mem addr value) addr = value
  load_store_apart (mem : M) (dest value addr : Word) (apart : Apart dest 4 addr 4) :
    load (store mem dest value) addr = load mem addr

open WordMemory

section Words

variable {M : Type} [WordMemory M]

def words (mem : M) (addr : Word) : Nat → List Word
  | 0 => []
  | n + 1 => load mem addr :: words mem (addr + 4) n

theorem words_store (mem : M) (dest value addr : Word) (n : Nat) (apart : Apart dest 4 addr (4 * n)) :
    words (store mem dest value) addr n = words mem addr n := by
  induction n generalizing addr with
  | zero => rfl
  | succ n ih =>
      have first : Apart dest 4 addr 4 := (apart.symm.first (by omega)).symm
      have rest : words (store mem dest value) (addr + 4) n = words mem (addr + 4) n := by
        cases n with
        | zero => rfl
        | succ n =>
            apply ih
            apply (apart.symm.inside _ _).symm
            · omega
            · simp
              omega
      rw [words, words, load_store_apart _ _ _ _ first, rest]

theorem words_set (mem : M) (addr value : Word) (n i : Nat) (few : 4 * n < 2 ^ 32) (isIn : i < n) :
    words (store mem (addr + BitVec.ofNat 32 (4 * i)) value) addr n =
      (words mem addr n).set i value := by
  induction n generalizing addr i with
  | zero => omega
  | succ n ih =>
      cases i with
      | zero =>
          have start : addr + BitVec.ofNat 32 (4 * 0) = addr := BitVec.add_zero addr
          have behind : words (store mem addr value) (addr + 4) n = words mem (addr + 4) n :=
            words_store mem addr value (addr + 4) n (Apart.next addr few)
          rw [start, words, words, load_store, behind, List.set_cons_zero]
      | succ i =>
          have start : addr + BitVec.ofNat 32 (4 * (i + 1)) =
              addr + 4 + BitVec.ofNat 32 (4 * i) := by
            apply BitVec.eq_of_toNat_eq
            simp
            omega
          have before : load (store mem (addr + BitVec.ofNat 32 (4 * (i + 1))) value) addr =
              load mem addr := by
            apply load_store_apart
            constructor
            · rw [BitVec.toNat_sub, BitVec.toNat_add, BitVec.toNat_ofNat]
              omega
            · rw [BitVec.toNat_sub, BitVec.toNat_add, BitVec.toNat_ofNat]
              omega
          rw [words, words, before, start, ih _ _ (by omega) (by omega), List.set_cons_succ]

theorem words_length (mem : M) (addr : Word) (n : Nat) : (words mem addr n).length = n := by
  induction n generalizing addr with
  | zero => rfl
  | succ n ih => rw [words, List.length_cons, ih]

theorem words_add (mem : M) (addr : Word) (n k : Nat) :
    words mem addr (n + k) = words mem addr n ++ words mem (addr + 4 * BitVec.ofNat 32 n) k := by
  induction n generalizing addr with
  | zero => simp [words]
  | succ n ih =>
      have next : addr + 4 + 4 * BitVec.ofNat 32 n = addr + 4 * BitVec.ofNat 32 (n + 1) := by
        apply BitVec.eq_of_toNat_eq
        simp
        omega
      rw [Nat.succ_add, words, ih, next, words, List.cons_append]

theorem words_split {mem : M} {addr : Word} (front back : List Word)
    (found : words mem addr (front.length + back.length) = front ++ back) :
    words mem addr front.length = front ∧
      words mem (addr + 4 * BitVec.ofNat 32 front.length) back.length = back := by
  rw [words_add] at found
  exact List.append_inj found (words_length _ _ _)

end Words

/-! Registers and stack. -/

inductive Reg
  | eax
  | ecx
  | edx
  | ebx
  | esp
  | ebp
  | esi
  | edi
  deriving DecidableEq, Repr

structure Registers where
  eax : Word
  ecx : Word
  edx : Word
  ebx : Word
  esp : Word
  ebp : Word
  esi : Word
  edi : Word
  eip : Word
  cs : Word
  eflags : Word
  deriving DecidableEq, Repr

namespace Registers

def get (regs : Registers) : Reg → Word
  | .eax => regs.eax
  | .ecx => regs.ecx
  | .edx => regs.edx
  | .ebx => regs.ebx
  | .esp => regs.esp
  | .ebp => regs.ebp
  | .esi => regs.esi
  | .edi => regs.edi

def set (regs : Registers) (dst : Reg) (value : Word) : Registers :=
  match dst with
  | .eax => { regs with eax := value }
  | .ecx => { regs with ecx := value }
  | .edx => { regs with edx := value }
  | .ebx => { regs with ebx := value }
  | .esp => { regs with esp := value }
  | .ebp => { regs with ebp := value }
  | .esi => { regs with esi := value }
  | .edi => { regs with edi := value }

def general (regs : Registers) : List Word :=
  [regs.eax, regs.ecx, regs.edx, regs.ebx, regs.esp, regs.ebp, regs.esi, regs.edi]

end Registers

/-- `V` are the variables of the program, which lie outside of the memory. -/
structure State (V M : Type) where
  regs : Registers
  var : V → Word
  mem : M

section Stack

variable {V M : Type} [WordMemory M]

namespace State

def push (s : State V M) (value : Word) : State V M :=
  { s with
    regs := { s.regs with esp := s.regs.esp - 4 }
    mem := store s.mem (s.regs.esp - 4) value }

def pushAll (s : State V M) (values : List Word) : State V M := values.foldl push s

theorem pushAll_regs (s : State V M) (values : List Word) : (s.pushAll values).regs =
    { s.regs with esp := s.regs.esp - 4 * BitVec.ofNat 32 values.length } := by
  induction values generalizing s with
  | nil => simp [pushAll]
  | cons value values ih =>
      have next : s.regs.esp - 4 - 4 * BitVec.ofNat 32 values.length =
          s.regs.esp - 4 * BitVec.ofNat 32 (values.length + 1) := by
        apply BitVec.eq_of_toNat_eq
        simp
        omega
      rw [pushAll, List.foldl_cons, ← pushAll, ih]
      simp only [push, next, List.length_cons]

theorem pushAll_var (s : State V M) (values : List Word) : (s.pushAll values).var = s.var := by
  induction values generalizing s with
  | nil => rfl
  | cons value values ih => exact ih (s.push value)

theorem pushAll_mem {s t : State V M} (regs : s.regs = t.regs) (mem : s.mem = t.mem)
    (values : List Word) : (s.pushAll values).mem = (t.pushAll values).mem := by
  induction values generalizing s t with
  | nil => exact mem
  | cons value values ih =>
      apply ih
      · simp only [push, regs]
      · simp only [push, regs, mem]

theorem words_pushAll (s : State V M) (values : List Word) (n : Nat)
    (few : 4 * (values.length + n) < 2 ^ 32) :
    words (s.pushAll values).mem (s.pushAll values).regs.esp (values.length + n) =
      values.reverse ++ words s.mem s.regs.esp n := by
  induction values generalizing s n with
  | nil => simp [pushAll]
  | cons value values ih =>
      have older : words (store s.mem (s.regs.esp - 4) value) s.regs.esp n =
          words s.mem s.regs.esp n := by
        apply words_store
        have behind := Apart.next (n := n) (s.regs.esp - 4)
          (by rw [List.length_cons] at few; omega)
        rwa [BitVec.sub_add_cancel] at behind
      have pushed : words (s.push value).mem (s.push value).regs.esp (n + 1) =
          value :: words s.mem s.regs.esp n := by
        have top : s.regs.esp - 4 + 4 = s.regs.esp := BitVec.sub_add_cancel _ _
        rw [words, push, load_store]
        simp only
        rw [top, older]
      have above := ih (s.push value) (n + 1) (by rw [List.length_cons] at few; omega)
      rw [pushed] at above
      have count : (value :: values).length + n = values.length + (n + 1) := by
        rw [List.length_cons]
        omega
      rw [count, List.reverse_cons, List.append_assoc, List.singleton_append]
      exact above

theorem words_pushed (s : State V M) (values : List Word) (n : Nat) {top : Word}
    (few : 4 * (values.length + n) < 2 ^ 32)
    (isTop : top = s.regs.esp - 4 * BitVec.ofNat 32 values.length) :
    words (s.pushAll values).mem top (values.length + n) =
      values.reverse ++ words s.mem s.regs.esp n := by
  have found := s.words_pushAll values n few
  rwa [pushAll_regs, ← isTop] at found

theorem words_pushAll_apart (s : State V M) (values : List Word) (addr : Word) (n : Nat)
    (apart : Apart (s.pushAll values).regs.esp (4 * values.length) addr (4 * n))
    (few : 4 * values.length < 2 ^ 32) : words (s.pushAll values).mem addr n = words s.mem addr n := by
  induction values generalizing s with
  | nil => rfl
  | cons value values ih =>
      rw [List.length_cons] at few
      have lower : Apart ((s.push value).pushAll values).regs.esp (4 * values.length) addr (4 * n) :=
        apart.first (by rw [List.length_cons]; omega)
      have here : Apart (s.regs.esp - 4) 4 addr (4 * n) := by
        have inside := apart.inside (i := 4 * BitVec.ofNat 32 values.length) (k := 4) (by omega)
          (by simp; omega)
        have top : (s.pushAll (value :: values)).regs.esp + 4 * BitVec.ofNat 32 values.length =
            s.regs.esp - 4 := by
          rw [pushAll_regs]
          apply BitVec.eq_of_toNat_eq
          simp
          omega
        rwa [top] at inside
      have step := ih (s.push value) lower (by omega)
      have first : words (s.push value).mem addr n = words s.mem addr n :=
        words_store _ _ _ _ _ here
      rw [← first, ← step]
      rfl

end State

/-! Instructions. -/

inductive Instr (V : Type)
  | pushf
  | popf
  | pusha
  | popa
  | cli
  | iret
  | movImm (value : Word) (dst : Reg)
  | mov (src dst : Reg)
  | load (src : V) (dst : Reg)
  | store (src : Reg) (dst : V)
  | storeAt (src : Reg) (disp : Word) (base : Reg)

def interruptFlag : Word := 0x200

def State.setReg (s : State V M) (dst : Reg) (value : Word) : State V M :=
  { s with regs := s.regs.set dst value }

def Instr.exec [DecidableEq V] (s : State V M) : Instr V → State V M
  | .pushf => s.push s.regs.eflags
  | .popf =>
      { s with regs := { s.regs with
          eflags := WordMemory.load s.mem s.regs.esp
          esp := s.regs.esp + 4 } }
  | .pusha => s.pushAll s.regs.general
  | .popa =>
      { s with regs := { s.regs with
          edi := WordMemory.load s.mem s.regs.esp
          esi := WordMemory.load s.mem (s.regs.esp + 4)
          ebp := WordMemory.load s.mem (s.regs.esp + 8)
          ebx := WordMemory.load s.mem (s.regs.esp + 16)
          edx := WordMemory.load s.mem (s.regs.esp + 20)
          ecx := WordMemory.load s.mem (s.regs.esp + 24)
          eax := WordMemory.load s.mem (s.regs.esp + 28)
          esp := s.regs.esp + 32 } }
  | .cli => { s with regs := { s.regs with eflags := s.regs.eflags &&& ~~~interruptFlag } }
  | .iret =>
      { s with regs := { s.regs with
          eip := WordMemory.load s.mem s.regs.esp
          cs := WordMemory.load s.mem (s.regs.esp + 4)
          eflags := WordMemory.load s.mem (s.regs.esp + 8)
          esp := s.regs.esp + 12 } }
  | .movImm value dst => s.setReg dst value
  | .mov src dst => s.setReg dst (s.regs.get src)
  | .load src dst => s.setReg dst (s.var src)
  | .store src dst =>
      { s with var := fun v => if v = dst then s.regs.get src else s.var v }
  | .storeAt src disp base =>
      { s with mem := WordMemory.store s.mem (s.regs.get base + disp) (s.regs.get src) }

/-- Code without jumps. -/
def execute [DecidableEq V] (s : State V M) (code : List (Instr V)) : State V M :=
  code.foldl Instr.exec s

theorem execute_append [DecidableEq V] (s : State V M) (front back : List (Instr V)) :
    execute s (front ++ back) = execute (execute s front) back := List.foldl_append

/-- What the processor does when it accepts an interrupt. -/
def State.interrupt (s : State V M) (handler : Word) : State V M :=
  let pushed := s.pushAll [s.regs.eflags, s.regs.cs, s.regs.eip]
  { pushed with regs := { pushed.regs with
      eip := handler
      eflags := s.regs.eflags &&& ~~~interruptFlag } }

end Stack

/-! Frames. -/

section Frames

variable {V M : Type} [WordMemory M]

/-- What an interrupt and `pusha` leave on the stack, from the top down. -/
def Registers.saved (regs : Registers) : List Word :=
  [regs.edi, regs.esi, regs.ebp, regs.esp - 12, regs.ebx, regs.edx, regs.ecx, regs.eax, regs.eip,
    regs.cs, regs.eflags]

/-- What `popa` and `iret` find on the stack at `sp`. -/
def resumed (mem : M) (sp : Word) : Registers where
  eax := load mem (sp + 28)
  ecx := load mem (sp + 24)
  edx := load mem (sp + 20)
  ebx := load mem (sp + 16)
  esp := sp + 44
  ebp := load mem (sp + 8)
  esi := load mem (sp + 4)
  edi := load mem sp
  eip := load mem (sp + 32)
  cs := load mem (sp + 36)
  eflags := load mem (sp + 40)

theorem execute_popa_iret [DecidableEq V] (s : State V M) :
    execute s [.popa, .iret] = { s with regs := resumed s.mem s.regs.esp } := by
  simp [execute, Instr.exec, resumed, BitVec.add_assoc]

theorem resumed_words {mem : M} {sp edi esi ebp ignored ebx edx ecx eax eip cs eflags : Word}
    (frame : words mem sp 11 = [edi, esi, ebp, ignored, ebx, edx, ecx, eax, eip, cs, eflags]) :
    resumed mem sp = ⟨eax, ecx, edx, ebx, sp + 44, ebp, esi, edi, eip, cs, eflags⟩ := by
  simp only [words, List.cons.injEq, and_true, BitVec.add_assoc] at frame
  obtain ⟨rfl, rfl, rfl, rfl, rfl, rfl, rfl, rfl, rfl, rfl, rfl⟩ := frame
  rfl

theorem words_resumed (mem : M) (sp : Word) : ∃ ignored, words mem sp 11 =
    [(resumed mem sp).edi, (resumed mem sp).esi, (resumed mem sp).ebp, ignored,
      (resumed mem sp).ebx, (resumed mem sp).edx, (resumed mem sp).ecx, (resumed mem sp).eax,
      (resumed mem sp).eip, (resumed mem sp).cs, (resumed mem sp).eflags] := by
  refine ⟨load mem (sp + 12), ?_⟩
  simp only [words, resumed, BitVec.add_assoc]
  rfl

theorem resumed_congr {mem mem' : M} {sp : Word} (same : words mem' sp 11 = words mem sp 11) :
    resumed mem' sp = resumed mem sp := by
  obtain ⟨ignored, frame⟩ := words_resumed mem sp
  rw [frame] at same
  exact resumed_words same

theorem resumed_eax (mem : M) (sp value : Word) :
    resumed (store mem (sp + 28) value) sp = { resumed mem sp with eax := value } := by
  obtain ⟨ignored, frame⟩ := words_resumed mem sp
  have stored := words_set mem sp value 11 7 (by decide) (by decide)
  rw [frame] at stored
  exact resumed_words stored

theorem resumed_saved {mem : M} {regs : Registers}
    (frame : words mem (regs.esp - 44) 11 = regs.saved) : resumed mem (regs.esp - 44) = regs := by
  rw [resumed_words frame, BitVec.sub_add_cancel]

theorem general_length (regs : Registers) : regs.general.length = 8 := rfl

section Handler

variable [DecidableEq V] (s : State V M) (handler : Word)

def Registers.gated (regs : Registers) (handler : Word) : Registers :=
  { regs with
    esp := regs.esp - 12
    eip := handler
    eflags := regs.eflags &&& ~~~interruptFlag }

def State.gate : State V M := s.pushAll [s.regs.eflags, s.regs.cs, s.regs.eip]

theorem entered_eq : execute (s.interrupt handler) [.cli, .pusha] =
    State.pushAll { s.gate with regs := s.regs.gated handler } (s.regs.gated handler).general := by
  simp only [execute, List.foldl_cons, List.foldl_nil, Instr.exec, State.interrupt, State.gate,
    State.pushAll_regs, BitVec.and_assoc, BitVec.and_self, Registers.gated]
  rfl

theorem entered_regs : (execute (s.interrupt handler) [.cli, .pusha]).regs =
    { s.regs.gated handler with esp := s.regs.esp - 44 } := by
  have top : s.regs.esp - 12 - 4 * BitVec.ofNat 32 8 = s.regs.esp - 44 := by bv_omega
  rw [entered_eq, State.pushAll_regs, general_length]
  simp only [Registers.gated, top]

theorem entered_var : (execute (s.interrupt handler) [.cli, .pusha]).var = s.var := by
  rw [entered_eq, State.pushAll_var]
  exact s.pushAll_var _

theorem entered_mem {s t : State V M} (regs : s.regs = t.regs) (mem : s.mem = t.mem) :
    (execute (s.interrupt handler) [.cli, .pusha]).mem =
      (execute (t.interrupt handler) [.cli, .pusha]).mem := by
  rw [entered_eq, entered_eq, regs]
  apply State.pushAll_mem
  · rfl
  · simp only [State.gate, regs]
    exact State.pushAll_mem regs mem _

theorem words_entered : words (execute (s.interrupt handler) [.cli, .pusha]).mem
    (s.regs.esp - 44) 11 = s.regs.saved := by
  have pushed : words s.gate.mem (s.regs.esp - 12) 3 = [s.regs.eip, s.regs.cs, s.regs.eflags] :=
    s.words_pushed [s.regs.eflags, s.regs.cs, s.regs.eip] 0 (by simp) rfl
  have top : s.regs.esp - 44 = s.regs.esp - 12 - 4 * BitVec.ofNat 32 8 := by bv_omega
  rw [entered_eq]
  apply (State.words_pushed _ (s.regs.gated handler).general 3 (by simp [general_length]) top).trans
  have below : (s.regs.gated handler).esp = s.regs.esp - 12 := rfl
  simp only [below, pushed]
  rfl

theorem words_entered_apart (addr : Word) (n : Nat)
    (apart : Apart (s.regs.esp - 44) 44 addr (4 * n)) :
    words (execute (s.interrupt handler) [.cli, .pusha]).mem addr n = words s.mem addr n := by
  have high : Apart s.gate.regs.esp 12 addr (4 * n) := by
    have inside := apart.inside (i := 32) (k := 12) (by decide) (by decide)
    have top : s.regs.esp - 44 + 32 = s.gate.regs.esp := by
      rw [State.gate, State.pushAll_regs]
      simp only [List.length_cons, List.length_nil]
      bv_omega
    rwa [top] at inside
  have first : words s.gate.mem addr n = words s.mem addr n := by
    apply State.words_pushAll_apart
    · exact high
    · simp
  rw [entered_eq, ← first]
  apply State.words_pushAll_apart
  · rw [← entered_eq, entered_regs]
    exact apart.first (by rw [general_length]; omega)
  · rw [general_length]
    omega

/-! The other way: flags and registers below a stack that is left without an interrupt. -/

def Registers.kept (regs : Registers) : List Word :=
  [regs.edi, regs.esi, regs.ebp, regs.esp - 4, regs.ebx, regs.edx, regs.ecx, regs.eax, regs.eflags]

def Registers.flagged (regs : Registers) : Registers := { regs with esp := regs.esp - 4 }

theorem left_eq : execute s [.pushf, .pusha] =
    State.pushAll { s.pushAll [s.regs.eflags] with regs := s.regs.flagged }
      s.regs.flagged.general := by
  simp only [execute, List.foldl_cons, List.foldl_nil, Instr.exec, State.push, State.pushAll,
    Registers.flagged]

theorem left_regs : (execute s [.pushf, .pusha]).regs = { s.regs with esp := s.regs.esp - 36 } := by
  have top : s.regs.esp - 4 - 4 * BitVec.ofNat 32 8 = s.regs.esp - 36 := by bv_omega
  rw [left_eq, State.pushAll_regs, general_length]
  simp only [Registers.flagged, top]

theorem left_var : (execute s [.pushf, .pusha]).var = s.var := by
  rw [left_eq, State.pushAll_var]
  exact s.pushAll_var _

theorem words_left : words (execute s [.pushf, .pusha]).mem (s.regs.esp - 36) 9 = s.regs.kept := by
  have pushed : words (s.pushAll [s.regs.eflags]).mem (s.regs.esp - 4) 1 = [s.regs.eflags] :=
    s.words_pushed [s.regs.eflags] 0 (by simp) rfl
  have top : s.regs.esp - 36 = s.regs.esp - 4 - 4 * BitVec.ofNat 32 8 := by bv_omega
  rw [left_eq]
  apply (State.words_pushed _ s.regs.flagged.general 1 (by simp [general_length]) top).trans
  have below : s.regs.flagged.esp = s.regs.esp - 4 := rfl
  simp only [below, pushed]
  rfl

theorem words_left_apart (addr : Word) (n : Nat)
    (apart : Apart (s.regs.esp - 36) 36 addr (4 * n)) :
    words (execute s [.pushf, .pusha]).mem addr n = words s.mem addr n := by
  have high : Apart (s.regs.esp - 4) 4 addr (4 * n) := by
    have inside := apart.inside (i := 32) (k := 4) (by decide) (by decide)
    have top : s.regs.esp - 36 + 32 = s.regs.esp - 4 := by bv_omega
    rwa [top] at inside
  have first : words (s.pushAll [s.regs.eflags]).mem addr n = words s.mem addr n :=
    words_store _ _ _ _ _ high
  rw [left_eq, ← first]
  apply State.words_pushAll_apart
  · rw [← left_eq, left_regs]
    exact apart.first (by rw [general_length]; omega)
  · rw [general_length]
    omega

end Handler

end Frames

end Ia32
