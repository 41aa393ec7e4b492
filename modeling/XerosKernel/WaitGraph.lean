import Mathlib.Data.Fintype.EquivFin
import Mathlib.Logic.Relation
import Mathlib.Order.WellFounded

/-!
Parties that wait for each other, as a relation on finitely many of them. Either a chain of waits
ends with a party that waits for nobody, or everyone on the chain is stuck behind a cycle.
-/

namespace WaitGraph

open Relation

variable {α : Type} {waits : α → α → Prop} {i j : α}

/-- Everyone whom `i` waits for, directly or through others, waits too. -/
def Stuck (waits : α → α → Prop) (i : α) : Prop :=
  ∀ j, ReflTransGen waits i j → ∃ k, waits j k

theorem not_stuck : ¬ Stuck waits i ↔ ∃ j, ReflTransGen waits i j ∧ ∀ k, ¬ waits j k := by
  simp [Stuck]

theorem Stuck.trans (stuck : Stuck waits i) (chain : ReflTransGen waits i j) : Stuck waits j :=
  fun k behind => stuck k (chain.trans behind)

theorem wellFounded_of_acyclic [Finite α] (acyclic : ∀ i, ¬ TransGen waits i i) :
    WellFounded fun i j => waits j i := by
  have transitive : IsTrans α fun i j => TransGen waits j i := ⟨fun _ _ _ first second =>
    second.trans first⟩
  have irreflexive : Std.Irrefl fun i j => TransGen waits j i := ⟨acyclic⟩
  have founded := Finite.wellFounded_of_trans_of_irrefl fun i j => TransGen waits j i
  exact Subrelation.wf (fun step => TransGen.single step) founded

theorem Stuck.cycle [Finite α] (stuck : Stuck waits i) :
    ∃ j, ReflTransGen waits i j ∧ TransGen waits j j := by
  by_contra none
  push Not at none
  -- the waits between the parties that `i` waits for
  let behind : α → α → Prop := fun j k => ReflTransGen waits i j ∧ waits j k
  have narrower : behind ≤ waits := fun _ _ step => step.2
  have acyclic : ∀ j, ¬ TransGen behind j j := by
    intro j round
    obtain ⟨k, ⟨reached, _⟩, _⟩ := TransGen.head'_iff.mp round
    exact none j reached (TransGen.mono narrower j j round)
  have founded := wellFounded_of_acyclic acyclic
  obtain ⟨last, reached, least⟩ := founded.has_min {j | ReflTransGen waits i j} ⟨i, .refl⟩
  obtain ⟨k, step⟩ := stuck last reached
  exact least k (reached.tail step) ⟨reached, step⟩

end WaitGraph
