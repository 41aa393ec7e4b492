import XerosKernel.KeyboardStream

/-!
The modifier flags of `kbtoa` against the keys that are really held. The two shift keys share
a flag, and the extended escape has the key-up bit, so `kbtoa` never sees it.
-/

namespace XerosKernel

open Execution

/-! The keys as pressed and released. -/

/-- `held` is about the key that sends a code alone, not about its twin that sends the same code
behind the escape. -/
structure Keys where
  held : Byte → Bool
  escaped : Bool

namespace Keys

def allUp : Keys := ⟨fun _ => false, false⟩

def after (keys : Keys) (code : Byte) : Keys :=
  if keys.escaped then { keys with escaped := false }
  else if code = EXTESC then { keys with escaped := true }
  else { keys with
    held := fun key => if key = code &&& 0x7f then code &&& KEY_UP = 0 else keys.held key }

def shift (keys : Keys) : Bool := keys.held LSHIFT || keys.held RSHIFT

end Keys

def flagOf (code : Byte) : Word :=
  let key := code &&& 0x7f
  if key = LSHIFT ∨ key = RSHIFT then INSHIFT
  else if key = CAPSL then CAPSLOCK
  else if key = LCTL then INCTL
  else if key = LMETA then INMETA
  else 0

def Flagged (state flag : Word) : Prop := state &&& flag ≠ 0

instance (state flag : Word) : Decidable (Flagged state flag) := inferInstanceAs (Decidable (_ ≠ _))

section Flags

variable {state flag other : Word} {code : Byte}

theorem flagged_or_same (nonzero : flag ≠ 0) : Flagged (state ||| flag) flag := by
  unfold Flagged
  rw [BitVec.and_or_distrib_right, BitVec.and_self]
  intro zero
  exact nonzero (BitVec.or_eq_zero_iff.mp zero).2

theorem flagged_or_other (apart : other &&& flag = 0) :
    (state ||| other) &&& flag = state &&& flag := by
  rw [BitVec.and_or_distrib_right, apart]
  exact BitVec.or_zero

theorem flagged_and_same : ¬ Flagged (state &&& ~~~flag) flag := by
  have none : ~~~flag &&& flag = 0 := by
    ext i
    simp
  unfold Flagged
  rw [BitVec.and_assoc, none]
  exact not_not.mpr BitVec.and_zero

theorem flagged_and_other (apart : other &&& flag = 0) :
    (state &&& ~~~other) &&& flag = state &&& flag := by
  have kept : ~~~other &&& flag = flag := by
    ext i bound
    have bits := congrArg (fun word : Word => word.getLsbD i) apart
    simp at bits ⊢
    grind
  rw [BitVec.and_assoc, kept]

/-- The flags that are set while a key is held down. -/
def Modifier (flag : Word) : Prop := flag = INSHIFT ∨ flag = INCTL ∨ flag = INMETA

theorem flagOf_apart (modifier : Modifier flag ∨ flag = EXTENDED)
    (different : flagOf code ≠ flag) : flagOf code &&& flag = 0 := by
  revert different
  simp only [flagOf]
  rcases modifier with (rfl | rfl | rfl) | rfl
  all_goals
    split_ifs <;> decide

theorem flagOf_ne_extended : flagOf code ≠ EXTENDED := by
  simp only [flagOf]
  split_ifs <;> decide

theorem flagOf_shift : flagOf code = INSHIFT ↔ code &&& 0x7f = LSHIFT ∨ code &&& 0x7f = RSHIFT := by
  simp only [flagOf]
  split_ifs <;> simp_all <;> decide

theorem flagOf_ctl : flagOf code = INCTL ↔ code &&& 0x7f = LCTL := by
  revert code
  decide

theorem flagOf_meta : flagOf code = INMETA ↔ code &&& 0x7f = LMETA := by
  revert code
  decide

/-! One call of `kbtoa`. -/

theorem kbtoa_up (plain : ¬ Flagged state EXTENDED) (up : code &&& KEY_UP ≠ 0) :
    kbtoa state code = (NOCHAR, state &&& ~~~flagOf code) := by
  have extended : ¬ (state &&& EXTENDED ≠ 0) := plain
  rw [kbtoa, if_neg extended, if_pos up]
  simp only [kbtoaKeyUp, flagOf]
  split_ifs <;> first | rfl | exact congrArg _ BitVec.and_allOnes.symm

theorem kbtoa_down (plain : ¬ Flagged state EXTENDED) (down : ¬ (code &&& KEY_UP ≠ 0)) :
    kbtoa state code = (if flagOf code ≠ 0 then NOCHAR else kbtoaChar state code,
      state ||| flagOf code) := by
  have extended : ¬ (state &&& EXTENDED ≠ 0) := plain
  have key : code &&& 0x7f = code := by
    revert down
    revert code
    decide
  have notEscape : code ≠ EXTESC := by
    rintro rfl
    exact down (by decide)
  rw [kbtoa, if_neg extended, if_neg down]
  simp only [flagOf, key, if_neg notEscape]
  split_ifs <;> first | rfl | contradiction | simp

theorem kbtoa_flag (plain : ¬ Flagged state EXTENDED) (modifier : Modifier flag ∨ flag = EXTENDED) :
    Flagged (kbtoa state code).2 flag ↔
      if flagOf code = flag then code &&& KEY_UP = 0 else Flagged state flag := by
  have nonzero : flag ≠ 0 := by
    rcases modifier with (rfl | rfl | rfl) | rfl
    all_goals decide
  by_cases up : code &&& KEY_UP ≠ 0
  · rw [kbtoa_up plain up]
    by_cases same : flagOf code = flag
    · subst same
      simp only [if_true]
      exact iff_of_false flagged_and_same up
    · rw [if_neg same, Flagged, flagged_and_other (flagOf_apart modifier same)]
      rfl
  · rw [kbtoa_down plain up]
    by_cases same : flagOf code = flag
    · subst same
      simp only [if_true]
      exact iff_of_true (flagged_or_same nonzero) (not_not.mp up)
    · rw [if_neg same, Flagged, flagged_or_other (flagOf_apart modifier same)]
      rfl

theorem kbtoa_plain (plain : ¬ Flagged state EXTENDED) :
    ¬ Flagged (kbtoa state code).2 EXTENDED := by
  rw [kbtoa_flag plain (Or.inr rfl), if_neg flagOf_ne_extended]
  exact plain

theorem plain_ne_noChar {ch : Word} (small : ch.toNat < 128) :
    ch ≠ NOCHAR ∧ ch + 0x80 ≠ NOCHAR := by
  constructor
  · rintro rfl
    exact absurd small (by decide)
  · intro same
    have value := congrArg BitVec.toNat same
    rw [BitVec.toNat_add] at value
    change (ch.toNat + 128) % 4294967296 = 256 at value
    omega

/-- No table has an entry for the code, or the code is not in the table that the keys select. -/
def Unmapped (shift ctl alt : Prop) (code : Byte) : Prop :=
  (shift ∧ kbshift.length ≤ code.toNat) ∨ (ctl ∧ kbctl.length ≤ code.toNat) ∨
    (kbcode.length ≤ code.toNat ∧ ¬ alt)

instance (shift ctl alt : Prop) [Decidable shift] [Decidable ctl] [Decidable alt] (code : Byte) :
    Decidable (Unmapped shift ctl alt code) := inferInstanceAs (Decidable (_ ∨ _))

theorem held_flagged : decide (state &&& flag ≠ 0) = true ↔ Flagged state flag := decide_eq_true_iff

theorem kbtoaChar_noChar : kbtoaChar state code = NOCHAR ↔
    Unmapped (Flagged state INSHIFT) (Flagged state INCTL) (Flagged state INMETA) code := by
  have entry : ∀ ch : Word, ch.toNat < 128 →
      ((if Flagged state INMETA then ch + 0x80 else ch) = NOCHAR ↔ False) := by
    intro ch small
    split
    · exact iff_false_intro (plain_ne_noChar small).2
    · exact iff_false_intro (plain_ne_noChar small).1
  have same : kbshift.length = kbcode.length := rfl
  have shorter : kbctl.length ≤ kbcode.length := by decide
  have sum : NOCHAR + 0x80 ≠ NOCHAR := by decide
  simp only [kbtoaChar, held_flagged, Unmapped, same]
  by_cases ctl : Flagged state INCTL
  · by_cases farCtl : kbctl.length ≤ code.toNat
    · simp only [ctl, farCtl, and_self, if_true, ite_self, true_or, or_true]
    · have near : ¬ kbcode.length ≤ code.toNat := fun far => farCtl (shorter.trans far)
      simp only [ctl, farCtl, near, and_false, false_and, if_true, if_false, or_self]
      exact entry _ (kbctl_lt _)
  · by_cases far : kbcode.length ≤ code.toNat
    · have outside : ¬ code.toNat < kbcode.length := Nat.not_lt.mpr far
      by_cases shift : Flagged state INSHIFT
      · simp only [shift, far, and_self, if_true, true_or]
      · simp only [shift, ctl, far, outside, false_and, if_false, false_or, true_and]
        by_cases alt : Flagged state INMETA
        · simp only [alt, if_true, not_true, iff_false]
          exact sum
        · simp only [alt, if_false, not_false_eq_true]
    · have inside : code.toNat < kbcode.length := Nat.lt_of_not_le far
      simp only [ctl, far, inside, and_false, false_and, if_false, if_true, or_self]
      by_cases shift : Flagged state INSHIFT <;> by_cases caps : Flagged state CAPSLOCK
      · simp only [shift, caps, if_true]
        exact entry _ (kbcode_lt _)
      · simp only [shift, caps, if_true, if_false]
        exact entry _ (kbshift_lt _)
      · simp only [shift, caps, if_true, if_false]
        exact entry _ (kbshift_lt _)
      · simp only [shift, caps, if_false]
        exact entry _ (kbcode_lt _)

end Flags

/-! Sequences of codes. -/

structure Typing where
  state : Word
  keys : Keys

namespace Typing

def start (state : Word) : Typing := ⟨state, Keys.allUp⟩

def after (typing : Typing) (code : Byte) : Typing :=
  ⟨(kbtoa typing.state code).2, typing.keys.after code⟩

def step (typing : Typing) (code : Byte) : Option Typing := some (typing.after code)

structure Tracked (typing : Typing) : Prop where
  shift : Flagged typing.state INSHIFT ↔ typing.keys.shift
  ctl : Flagged typing.state INCTL ↔ typing.keys.held LCTL
  alt : Flagged typing.state INMETA ↔ typing.keys.held LMETA

/-- The flags are right when the code has been processed, and a code behind the escape is decoded
to nothing and changes none of them. -/
def Correct (typing : Typing) (code : Byte) : Prop :=
  (typing.after code).Tracked ∧
    (typing.keys.escaped → (kbtoa typing.state code).1 = NOCHAR ∧
      ∀ flag, Modifier flag → (Flagged (typing.after code).state flag ↔ Flagged typing.state flag))

end Typing

/-- A code that says nothing new about a modifier key and is in no table. -/
def Keys.Unheard (keys : Keys) (code : Byte) : Prop :=
  (flagOf code = INSHIFT → (code &&& KEY_UP = 0 ↔ keys.shift)) ∧
  (flagOf code = INCTL → (code &&& KEY_UP = 0 ↔ keys.held LCTL)) ∧
  (flagOf code = INMETA → (code &&& KEY_UP = 0 ↔ keys.held LMETA)) ∧
  (flagOf code = 0 ∧ code &&& KEY_UP = 0 →
    Unmapped keys.shift (keys.held LCTL) (keys.held LMETA) code)

def Keys.LeavesShift (keys : Keys) (code : Byte) : Prop :=
  (code = LSHIFT ||| KEY_UP ∧ keys.held RSHIFT) ∨ (code = RSHIFT ||| KEY_UP ∧ keys.held LSHIFT)

/-- The code means to `kbtoa` what it means to the keys. -/
def Keys.Understood (keys : Keys) (code : Byte) : Prop :=
  (keys.escaped → keys.Unheard code) ∧ (¬ keys.escaped → ¬ keys.LeavesShift code)

instance (keys : Keys) (code : Byte) : Decidable (keys.Unheard code) :=
  inferInstanceAs (Decidable (_ ∧ _))

instance (keys : Keys) (code : Byte) : Decidable (keys.LeavesShift code) :=
  inferInstanceAs (Decidable (_ ∨ _))

instance (keys : Keys) (code : Byte) : Decidable (keys.Understood code) :=
  inferInstanceAs (Decidable (_ ∧ _))

variable {typing : Typing} {state flag : Word} {code : Byte}

theorem kbtoa_noChar (plain : ¬ Flagged state EXTENDED) : (kbtoa state code).1 = NOCHAR ↔
    (flagOf code = 0 ∧ code &&& KEY_UP = 0 →
      Unmapped (Flagged state INSHIFT) (Flagged state INCTL) (Flagged state INMETA) code) := by
  by_cases up : code &&& KEY_UP ≠ 0
  · rw [kbtoa_up plain up]
    exact iff_of_true rfl fun both => absurd both.2 up
  · rw [kbtoa_down plain up]
    by_cases modifier : flagOf code = 0
    · rw [if_neg (not_not.mpr modifier), kbtoaChar_noChar]
      exact ⟨fun unmapped _ => unmapped, fun unmapped => unmapped ⟨modifier, not_not.mp up⟩⟩
    · rw [if_pos modifier]
      exact iff_of_true rfl fun both => absurd both.1 modifier

theorem kbtoa_flag_same (plain : ¬ Flagged state EXTENDED) (modifier : Modifier flag)
    (code : Byte) :
    (Flagged (kbtoa state code).2 flag ↔ Flagged state flag) ↔
      (flagOf code = flag → (code &&& KEY_UP = 0 ↔ Flagged state flag)) := by
  rw [kbtoa_flag plain (Or.inl modifier)]
  by_cases same : flagOf code = flag
  · simp only [same, if_true, true_imp_iff]
  · simp only [same, if_false, false_imp_iff]

theorem forall_modifier {P : Word → Prop} :
    (∀ flag, Modifier flag → P flag) ↔ P INSHIFT ∧ P INCTL ∧ P INMETA := by
  constructor
  · intro all
    exact ⟨all _ (Or.inl rfl), all _ (Or.inr (Or.inl rfl)), all _ (Or.inr (Or.inr rfl))⟩
  · rintro ⟨shift, ctl, alt⟩ flag (rfl | rfl | rfl)
    · exact shift
    · exact ctl
    · exact alt

theorem unheard_iff (tracked : typing.Tracked) (plain : ¬ Flagged typing.state EXTENDED) :
    typing.keys.Unheard code ↔ (kbtoa typing.state code).1 = NOCHAR ∧
      ∀ flag, Modifier flag →
        (Flagged (typing.after code).state flag ↔ Flagged typing.state flag) := by
  have same := fun flag (modifier : Modifier flag) =>
    kbtoa_flag_same plain modifier code
  obtain ⟨shift, ctl, alt⟩ := forall_modifier.mp same
  have state : (typing.after code).state = (kbtoa typing.state code).2 := rfl
  rw [forall_modifier, kbtoa_noChar plain, state, shift, ctl, alt, tracked.shift, tracked.ctl,
    tracked.alt]
  constructor
  · rintro ⟨shift, ctl, alt, unmapped⟩
    exact ⟨unmapped, shift, ctl, alt⟩
  · rintro ⟨unmapped, shift, ctl, alt⟩
    exact ⟨shift, ctl, alt, unmapped⟩

theorem escaped_correct (tracked : typing.Tracked) (plain : ¬ Flagged typing.state EXTENDED)
    (escaped : typing.keys.escaped) : typing.Correct code ↔ typing.keys.Unheard code := by
  have keys : (typing.after code).keys = { typing.keys with escaped := false } := by
    simp only [Typing.after, Keys.after, escaped, if_true]
  rw [unheard_iff tracked plain]
  constructor
  · rintro ⟨_, silent⟩
    exact silent escaped
  · rintro ⟨silent, same⟩
    refine ⟨⟨?_, ?_, ?_⟩, fun _ => ⟨silent, same⟩⟩
    · rw [same INSHIFT (Or.inl rfl), tracked.shift, keys]
      rfl
    · rw [same INCTL (Or.inr (Or.inl rfl)), tracked.ctl, keys]
    · rw [same INMETA (Or.inr (Or.inr rfl)), tracked.alt, keys]

theorem escape_tracked (tracked : typing.Tracked) (plain : ¬ Flagged typing.state EXTENDED)
    (unescaped : ¬ typing.keys.escaped) : (typing.after EXTESC).Tracked := by
  have keys : (typing.after EXTESC).keys = { typing.keys with escaped := true } := by
    rw [Typing.after, Keys.after, if_neg unescaped, if_pos rfl]
  have same : ∀ flag, Modifier flag →
      (Flagged (typing.after EXTESC).state flag ↔ Flagged typing.state flag) := by
    intro flag modifier
    have none : flagOf EXTESC ≠ flag := by
      rcases modifier with rfl | rfl | rfl
      all_goals decide
    exact (kbtoa_flag_same plain modifier EXTESC).mpr fun is => absurd is none
  refine ⟨?_, ?_, ?_⟩
  · rw [same INSHIFT (Or.inl rfl), tracked.shift, keys]
    rfl
  · rw [same INCTL (Or.inr (Or.inl rfl)), tracked.ctl, keys]
  · rw [same INMETA (Or.inr (Or.inr rfl)), tracked.alt, keys]

theorem own_flag {key : Byte} (plain : ¬ Flagged state EXTENDED) (modifier : Modifier flag)
    (stands : flagOf code = flag ↔ code &&& 0x7f = key) :
    Flagged (kbtoa state code).2 flag ↔
      if key = code &&& 0x7f then code &&& KEY_UP = 0 else Flagged state flag := by
  rw [kbtoa_flag plain (Or.inl modifier)]
  by_cases same : code &&& 0x7f = key
  · rw [if_pos (stands.mpr same), if_pos same.symm]
  · rw [if_neg fun is => same (stands.mp is), if_neg fun is => same is.symm]

theorem stays_iff (pressed held : Prop) : (pressed ↔ pressed ∨ held) ↔ ¬ (¬ pressed ∧ held) := by
  by_cases is : pressed <;> simp [is]

theorem shift_flag {left right : Prop} (plain : ¬ Flagged state EXTENDED)
    (tracked : Flagged state INSHIFT ↔ left ∨ right) (code : Byte) :
    (Flagged (kbtoa state code).2 INSHIFT ↔
      (if LSHIFT = code &&& 0x7f then code &&& KEY_UP = 0 else left) ∨
        if RSHIFT = code &&& 0x7f then code &&& KEY_UP = 0 else right) ↔
      ¬ ((code = LSHIFT ||| KEY_UP ∧ right) ∨ (code = RSHIFT ||| KEY_UP ∧ left)) := by
  have release : ∀ code : Byte,
      (code = LSHIFT ||| KEY_UP ↔ LSHIFT = code &&& 0x7f ∧ code &&& KEY_UP ≠ 0) ∧
      (code = RSHIFT ||| KEY_UP ↔ RSHIFT = code &&& 0x7f ∧ code &&& KEY_UP ≠ 0) := by decide
  rw [kbtoa_flag plain (Or.inl (Or.inl rfl)), (release code).1, (release code).2]
  by_cases isLeft : LSHIFT = code &&& 0x7f
  · have notRight : RSHIFT ≠ code &&& 0x7f := fun is => absurd (isLeft.trans is.symm) (by decide)
    rw [if_pos (flagOf_shift.mpr (Or.inl isLeft.symm)), if_pos isLeft, if_neg notRight]
    simp only [eq_true isLeft, eq_false notRight, true_and, false_and, or_false]
    exact stays_iff _ _
  · rw [if_neg isLeft]
    by_cases isRight : RSHIFT = code &&& 0x7f
    · rw [if_pos (flagOf_shift.mpr (Or.inr isRight.symm)), if_pos isRight, or_comm]
      simp only [eq_false isLeft, eq_true isRight, true_and, false_and, false_or]
      exact stays_iff _ _
    · have other : flagOf code ≠ INSHIFT := by
        intro is
        exact (flagOf_shift.mp is).elim (fun same => isLeft same.symm) fun same =>
          isRight same.symm
      rw [if_neg other, if_neg isRight]
      simp only [eq_false isLeft, eq_false isRight, false_and, or_false, not_false_eq_true]
      exact iff_of_true tracked trivial

theorem unescaped_correct (tracked : typing.Tracked) (plain : ¬ Flagged typing.state EXTENDED)
    (unescaped : ¬ typing.keys.escaped) :
    typing.Correct code ↔ ¬ typing.keys.LeavesShift code := by
  have tracks : typing.Correct code ↔ (typing.after code).Tracked :=
    ⟨fun correct => correct.1, fun after => ⟨after, fun is => absurd is unescaped⟩⟩
  rw [tracks]
  by_cases escape : code = EXTESC
  · subst escape
    refine iff_of_true (escape_tracked tracked plain unescaped) ?_
    rintro (⟨same, _⟩ | ⟨same, _⟩)
    · exact absurd same (by decide)
    · exact absurd same (by decide)
  · have held : ∀ key, (typing.after code).keys.held key ↔
        if key = code &&& 0x7f then code &&& KEY_UP = 0 else typing.keys.held key := by
      intro key
      rw [Typing.after, Keys.after, if_neg unescaped, if_neg escape]
      by_cases same : key = code &&& 0x7f <;> simp [same]
    have shift := tracked.shift
    rw [Keys.shift, Bool.or_eq_true] at shift
    have shifts := shift_flag plain shift code
    rw [← held, ← held] at shifts
    constructor
    · intro after
      have flag := after.shift
      rw [Keys.shift, Bool.or_eq_true] at flag
      exact shifts.mp flag
    · intro alone
      refine ⟨?_, ?_, ?_⟩
      · rw [Keys.shift, Bool.or_eq_true]
        exact shifts.mpr alone
      · rw [held, ← tracked.ctl]
        exact own_flag plain (Or.inr (Or.inl rfl)) flagOf_ctl
      · rw [held, ← tracked.alt]
        exact own_flag plain (Or.inr (Or.inr rfl)) flagOf_meta

/-- Over every sequence of codes the flags follow the keys exactly if each code is understood. -/
theorem modifiers_tracked {state : Word} (shift : ¬ Flagged state INSHIFT)
    (ctl : ¬ Flagged state INCTL) (alt : ¬ Flagged state INMETA) (plain : ¬ Flagged state EXTENDED)
    (codes : List Byte) :
    Along Typing.step Typing.Correct (Typing.start state) codes ↔
      Along Typing.step (fun typing code => typing.keys.Understood code) (Typing.start state)
        codes := by
  have initial : (Typing.start state).Tracked ∧ ¬ Flagged (Typing.start state).state EXTENDED :=
    ⟨⟨iff_of_false shift Bool.false_ne_true, iff_of_false ctl Bool.false_ne_true,
      iff_of_false alt Bool.false_ne_true⟩, plain⟩
  refine along_iff (fun typing => typing.Tracked ∧ ¬ Flagged typing.state EXTENDED)
    ?_ ?_ initial
  · rintro typing code ⟨tracked, plain⟩
    by_cases escaped : typing.keys.escaped
    · rw [escaped_correct tracked plain escaped]
      exact ⟨fun unheard => ⟨fun _ => unheard, fun not => absurd escaped not⟩,
        fun understood => understood.1 escaped⟩
    · rw [unescaped_correct tracked plain escaped]
      exact ⟨fun single => ⟨fun is => absurd is escaped, fun _ => single⟩,
        fun understood => understood.2 escaped⟩
  · rintro typing code _ ⟨_, plain⟩ correct stepped
    cases stepped
    exact ⟨correct.1, kbtoa_plain plain⟩

theorem modifiers_tracked_letters : Along Typing.step Typing.Correct (Typing.start 0)
    [LSHIFT, 0x1e, LSHIFT ||| KEY_UP, LCTL, 0x2e, LCTL ||| KEY_UP, EXTESC, 0x48, EXTESC, 0xc8] :=
  (modifiers_tracked (by decide) (by decide) (by decide) (by decide) _).mpr (by decide)

/-- One of two shift keys is released; and the right control key, which sends the code of the left
one behind the escape, is pressed. -/
theorem modifiers_lost :
    (∃ typing, run Typing.step (Typing.start 0) [LSHIFT, RSHIFT, LSHIFT ||| KEY_UP] =
      some typing ∧ typing.keys.held RSHIFT ∧ ¬ Flagged typing.state INSHIFT) ∧
    ∃ typing, run Typing.step (Typing.start 0) [EXTESC, LCTL] = some typing ∧
      ¬ typing.keys.held LCTL ∧ Flagged typing.state INCTL :=
  ⟨⟨_, rfl, by decide, by decide⟩, ⟨_, rfl, by decide, by decide⟩⟩

end XerosKernel
