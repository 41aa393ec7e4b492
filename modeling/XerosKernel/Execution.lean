import Mathlib.Data.List.Basic
import Mathlib.Data.Finset.Card
import Mathlib.Data.List.ReduceOption

/-!
Runs of a deterministic machine whose step may fail to return. `Along` says that a
guard holds of every step a run takes; the induction over runs is done once here.
-/

namespace Execution

variable {σ ε : Type} {step : σ → ε → Option σ} {guard : σ → ε → Prop}

def run (step : σ → ε → Option σ) : σ → List ε → Option σ
  | state, [] => some state
  | state, event :: rest => (step state event).bind fun after => run step after rest

/-- Every step of the run starts in a state in which the guard accepts its event. -/
def Along (step : σ → ε → Option σ) (guard : σ → ε → Prop) : σ → List ε → Prop
  | _, [] => True
  | state, event :: rest =>
      guard state event ∧ ∀ after, step state event = some after → Along step guard after rest

instance decidableAlong [∀ state event, Decidable (guard state event)] :
    (state : σ) → (events : List ε) → Decidable (Along step guard state events)
  | _, [] => isTrue trivial
  | state, event :: rest =>
      match stepped : step state event with
      | none => decidable_of_iff (guard state event) (by simp [Along, stepped])
      | some after =>
          have := decidableAlong after rest
          decidable_of_iff (guard state event ∧ Along step guard after rest)
            (by simp [Along, stepped])

@[simp] theorem run_nil (state : σ) : run step state [] = some state := rfl

theorem run_cons (state : σ) (event : ε) (rest : List ε) :
    run step state (event :: rest) = (step state event).bind fun after => run step after rest :=
  rfl

theorem run_cons_eq_some {state final : σ} {event : ε} {rest : List ε} :
    run step state (event :: rest) = some final ↔
      ∃ after, step state event = some after ∧ run step after rest = some final := by
  rw [run_cons, Option.bind_eq_some_iff]

theorem run_append {state : σ} {front back : List ε} :
    run step state (front ++ back) = (run step state front).bind fun middle =>
      run step middle back := by
  induction front generalizing state with
  | nil => rfl
  | cons event front ih =>
      simp only [List.cons_append, run_cons]
      cases step state event with
      | none => rfl
      | some after => simpa using ih

theorem along_append {state middle : σ} {front back : List ε}
    (along : Along step guard state (front ++ back))
    (reached : run step state front = some middle) :
    Along step guard state front ∧ Along step guard middle back := by
  induction front generalizing state with
  | nil =>
      rw [run_nil, Option.some.injEq] at reached
      subst reached
      exact ⟨trivial, along⟩
  | cons event front ih =>
      obtain ⟨after, stepped, tail⟩ := run_cons_eq_some.mp reached
      have rest := ih (along.2 after stepped) tail
      refine ⟨⟨along.1, ?_⟩, rest.2⟩
      intro other steppedOther
      rw [stepped] at steppedOther
      cases steppedOther
      exact rest.1

/-- What one guarded step preserves, a run of guarded steps preserves. -/
theorem run_invariant {invariant : σ → Prop}
    (preserved : ∀ state event after, invariant state → guard state event →
      step state event = some after → invariant after)
    {state final : σ} {events : List ε} (initial : invariant state)
    (along : Along step guard state events) (reached : run step state events = some final) :
    invariant final := by
  induction events generalizing state with
  | nil =>
      rw [run_nil, Option.some.injEq] at reached
      subst reached
      exact initial
  | cons event rest ih =>
      obtain ⟨after, stepped, tail⟩ := run_cons_eq_some.mp reached
      exact ih (preserved state event after initial along.1 stepped) (along.2 after stepped) tail

/-- Where a step keeps a property exactly if its guard holds and never brings it back, a run
keeps the property exactly if the guard holds all along it. -/
theorem run_iff_along {invariant good : σ → Prop}
    (kept : ∀ state event after, invariant state → step state event = some after →
      invariant after ∧ (good after ↔ good state ∧ guard state event))
    {state final : σ} {events : List ε} (initial : invariant state)
    (reached : run step state events = some final) :
    good final ↔ good state ∧ Along step guard state events := by
  induction events generalizing state with
  | nil =>
      rw [run_nil, Option.some.injEq] at reached
      subst reached
      simp [Along]
  | cons event rest ih =>
      obtain ⟨after, stepped, tail⟩ := run_cons_eq_some.mp reached
      obtain ⟨next, same⟩ := kept state event after initial stepped
      simp only [ih next tail, same, Along, stepped, Option.some.injEq, forall_eq', and_assoc]

theorem along_true {state : σ} {events : List ε} :
    Along step (fun _ _ => True) state events := by
  induction events generalizing state with
  | nil => trivial
  | cons event rest ih => exact ⟨trivial, fun after _ => ih⟩

theorem along_imp {guard' : σ → ε → Prop}
    (implies : ∀ state event, guard state event → guard' state event) {state : σ} {events : List ε}
    (along : Along step guard state events) : Along step guard' state events := by
  induction events generalizing state with
  | nil => trivial
  | cons event rest ih =>
      exact ⟨implies state event along.1, fun after stepped => ih (along.2 after stepped)⟩

theorem along_and {guard' : σ → ε → Prop} {state : σ} {events : List ε}
    (first : Along step guard state events) (second : Along step guard' state events) :
    Along step (fun state event => guard state event ∧ guard' state event) state events := by
  induction events generalizing state with
  | nil => trivial
  | cons event rest ih =>
      refine ⟨⟨first.1, second.1⟩, fun after stepped => ?_⟩
      exact ih (first.2 after stepped) (second.2 after stepped)

theorem along_iff {guard' : σ → ε → Prop} (invariant : σ → Prop)
    (same : ∀ state event, invariant state → (guard state event ↔ guard' state event))
    (kept : ∀ state event after, invariant state → guard state event →
      step state event = some after → invariant after)
    {state : σ} {events : List ε} (initial : invariant state) :
    Along step guard state events ↔ Along step guard' state events := by
  induction events generalizing state with
  | nil => exact Iff.rfl
  | cons event rest ih =>
      constructor
      · rintro ⟨here, behind⟩
        refine ⟨(same state event initial).mp here, fun after stepped => ?_⟩
        exact (ih (kept state event after initial here stepped)).mp (behind after stepped)
      · rintro ⟨here, behind⟩
        have accepted := (same state event initial).mpr here
        refine ⟨accepted, fun after stepped => ?_⟩
        exact (ih (kept state event after initial accepted stepped)).mpr (behind after stepped)

theorem run_map {δ : Type} (other : σ → δ → Option σ) (op : ε → δ)
    (same : ∀ state event, guard state event → step state event = other state (op event))
    {state : σ} {events : List ε} (along : Along step guard state events) :
    run step state events = run other state (events.map op) := by
  induction events generalizing state with
  | nil => rfl
  | cons event rest ih =>
      rw [List.map_cons, run_cons, run_cons, ← same state event along.1]
      cases stepped : step state event with
      | none => rfl
      | some after => exact ih (along.2 after stepped)

/-- Where each step of an abstract machine is matched by the step of an implementation, a run
of the first is matched by the run of the second. -/
theorem run_refines {τ δ : Type} {abstractStep : τ → δ → Option τ} {op : ε → δ}
    {refines : σ → τ → Prop}
    (matched : ∀ state s event s', refines state s → abstractStep s (op event) = some s' →
      ∃ after, step state event = some after ∧ refines after s')
    {state : σ} {s s' : τ} {events : List ε} (related : refines state s)
    (reached : run abstractStep s (events.map op) = some s') :
    ∃ final, run step state events = some final ∧ refines final s' := by
  induction events generalizing state s with
  | nil =>
      rw [List.map_nil, run_nil, Option.some.injEq] at reached
      subst reached
      exact ⟨state, rfl, related⟩
  | cons event rest ih =>
      rw [List.map_cons] at reached
      obtain ⟨middle, stepped, tail⟩ := run_cons_eq_some.mp reached
      obtain ⟨after, steppedHere, relatedHere⟩ := matched state s event middle related stepped
      obtain ⟨final, reachedHere, relatedThere⟩ := ih relatedHere tail
      exact ⟨final, run_cons_eq_some.mpr ⟨after, steppedHere, reachedHere⟩, relatedThere⟩

inductive Labelled {δ : Type} (step : σ → ε → Option σ) (label : σ → ε → δ → Prop) :
    σ → List ε → List δ → Prop
  | nil {state : σ} : Labelled step label state [] []
  | cons {state after : σ} {event : ε} {name : δ} {rest : List ε} {names : List δ}
      (here : label state event name) (stepped : step state event = some after)
      (tail : Labelled step label after rest names) :
      Labelled step label state (event :: rest) (name :: names)

theorem Labelled.unique {δ : Type} {label : σ → ε → δ → Prop}
    (determined : ∀ state event name name', label state event name → label state event name' →
      name = name')
    {state : σ} {events : List ε} {names names' : List δ}
    (first : Labelled step label state events names)
    (second : Labelled step label state events names') : names = names' := by
  induction first generalizing names' with
  | nil =>
      cases second
      rfl
  | cons here stepped tail ih =>
      cases second with
      | cons here' stepped' tail' =>
          rw [stepped, Option.some.injEq] at stepped'
          subst stepped'
          rw [determined _ _ _ _ here here', ih tail']

/-- Where each guarded step of an implementation is a step of an abstract machine for some label,
a guarded run is a run of the abstract machine for labels of its steps, and so is every beginning of
it for the first of these labels. -/
theorem run_labelled {τ δ : Type} {abstractStep : τ → δ → Option τ} {label : σ → ε → δ → Prop}
    {refines : σ → τ → Prop}
    (matched : ∀ state s event after, refines state s → guard state event →
      step state event = some after →
        ∃ name s', label state event name ∧ abstractStep s name = some s' ∧ refines after s')
    {state final : σ} {s : τ} {events : List ε} (related : refines state s)
    (along : Along step guard state events) (reached : run step state events = some final) :
    ∃ names s', Labelled step label state events names ∧ run abstractStep s names = some s' ∧
      refines final s' ∧
      ∀ n, ∃ middle t, run step state (events.take n) = some middle ∧
        run abstractStep s (names.take n) = some t ∧ refines middle t := by
  induction events generalizing state s with
  | nil =>
      cases reached
      exact ⟨[], s, .nil, rfl, related, fun n => ⟨final, s, by simp, by simp, related⟩⟩
  | cons event rest ih =>
      obtain ⟨after, stepped, tail⟩ := run_cons_eq_some.mp reached
      obtain ⟨name, middle, here, abstractly, relatedHere⟩ :=
        matched state s event after related along.1 stepped
      obtain ⟨names, s', labels, reached', relatedThere, beginnings⟩ :=
        ih relatedHere (along.2 after stepped) tail
      refine ⟨name :: names, s', .cons here stepped labels,
        run_cons_eq_some.mpr ⟨middle, abstractly, reached'⟩, relatedThere, fun n => ?_⟩
      cases n with
      | zero => exact ⟨state, s, rfl, rfl, related⟩
      | succ n =>
          obtain ⟨state', t, begun, begun', relatedThen⟩ := beginnings n
          exact ⟨state', t, run_cons_eq_some.mpr ⟨after, stepped, begun⟩,
            run_cons_eq_some.mpr ⟨middle, abstractly, begun'⟩, relatedThen⟩

/-- Where a step takes in at the back of a list what it is given, and hands out its front, a run
hands out in order what it was given, but for what is left. -/
theorem run_conserves {κ : Type} {invariant : σ → Prop} (held : σ → List κ)
    (input output : ε → List κ)
    (conserved : ∀ state event after, invariant state → step state event = some after →
      invariant after ∧ held state ++ input event = output event ++ held after)
    {state final : σ} {events : List ε} (initial : invariant state)
    (reached : run step state events = some final) :
    held state ++ events.flatMap input = events.flatMap output ++ held final := by
  induction events generalizing state with
  | nil =>
      cases reached
      simp
  | cons event rest ih =>
      obtain ⟨after, stepped, tail⟩ := run_cons_eq_some.mp reached
      obtain ⟨next, balance⟩ := conserved state event after initial stepped
      rw [List.flatMap_cons, List.flatMap_cons, ← List.append_assoc, balance, List.append_assoc,
        ih next tail, List.append_assoc]

def stutter (step : σ → ε → Option σ) (state : σ) : Option ε → Option σ
  | none => some state
  | some event => step state event

theorem run_stutter {state : σ} {events : List (Option ε)} :
    run (stutter step) state events = run step state events.reduceOption := by
  induction events generalizing state with
  | nil => rfl
  | cons event rest ih =>
      cases event with
      | none => exact ih
      | some event =>
          rw [List.reduceOption_cons_of_some, run_cons, run_cons]
          congr 1
          funext after
          exact ih

/-! Loops: the same step over and over. -/

theorem run_replicate_take {loop : σ → Unit → Option σ} {state : σ} {rounds longer : Nat}
    (shorter : rounds ≤ longer)
    (goesOn : (run loop state (List.replicate longer ())).isSome) :
    (run loop state (List.replicate rounds ())).isSome := by
  obtain ⟨others, rfl⟩ := Nat.exists_eq_add_of_le shorter
  rw [List.replicate_add, run_append] at goesOn
  exact Option.isSome_of_isSome_bind goesOn

theorem run_replicate_repeat {loop : σ → Unit → Option σ} {state again : σ} {first second : Nat}
    (before : first < second)
    (once : run loop state (List.replicate first ()) = some again)
    (twice : run loop state (List.replicate second ()) = some again) (rounds : Nat) :
    (run loop state (List.replicate rounds ())).isSome := by
  induction rounds using Nat.strong_induction_on with
  | _ rounds ih =>
      by_cases within : rounds ≤ second
      · exact run_replicate_take within (by rw [twice]; rfl)
      · -- the rounds behind the second visit are those behind the first one
        obtain ⟨others, rfl⟩ := Nat.exists_eq_add_of_le (Nat.le_of_not_le within)
        have fewer := ih (first + others) (by omega)
        rw [List.replicate_add, run_append, once] at fewer
        rw [List.replicate_add, run_append, twice]
        exact fewer

/-- A loop that goes on for as many rounds as it has states never ends. -/
theorem run_replicate_endless {κ : Type} [DecidableEq κ] {loop : σ → Unit → Option σ}
    (invariant : σ → Prop)
    (preserved : ∀ state event after, invariant state → loop state event = some after →
      invariant after)
    (code : σ → κ) (injective : code.Injective) (codes : Finset κ)
    (coded : ∀ state, invariant state → code state ∈ codes)
    {state : σ} (initial : invariant state)
    (long : (run loop state (List.replicate codes.card ())).isSome) (rounds : Nat) :
    (run loop state (List.replicate rounds ())).isSome := by
  have goesOn (i : Nat) (bound : i ∈ Finset.range (codes.card + 1)) :
      ∃ after, run loop state (List.replicate i ()) = some after ∧ invariant after := by
    have shorter : i ≤ codes.card := Nat.lt_succ_iff.mp (Finset.mem_range.mp bound)
    obtain ⟨after, reached⟩ := Option.isSome_iff_exists.mp (run_replicate_take shorter long)
    have everywhere : Along loop (fun _ _ => True) state (List.replicate i ()) := along_true
    exact ⟨after, reached, run_invariant
      (fun state event after holds _ => preserved state event after holds) initial everywhere
      reached⟩
  have inhabited : Nonempty σ := ⟨state⟩
  choose! visited reached holds using goesOn
  obtain ⟨i, inI, j, inJ, different, same⟩ := Finset.exists_ne_map_eq_of_card_lt_of_maps_to
    (by rw [Finset.card_range]; exact Nat.lt_succ_self _)
    (fun i bound => coded _ (holds i bound))
  have back := injective same
  rcases Nat.lt_or_gt_of_ne different with before | before
  · exact run_replicate_repeat before (reached i inI) (back ▸ reached j inJ) rounds
  · exact run_replicate_repeat before (reached j inJ) (back ▸ reached i inI) rounds

end Execution
