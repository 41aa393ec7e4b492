import Mathlib.Data.List.Nodup
import Mathlib.Logic.Function.Basic
import XerosKernel.Execution

/-!
Synchronous message passing. A party that sends waits until the other one receives, and a party
that receives waits until somebody sends to it; the message is handed over when both have come. The
offers wait in the order in which they were made, and a receiver gets the oldest it asks for.
-/

namespace Handshake

open Execution

/-- `sender` waits to send `load` to `dest`. -/
structure Offer (α β : Type) where
  sender : α
  dest : α
  load : β

/-- A party waits to receive into `room` from `source`, or from anybody. -/
structure Want (α γ : Type) where
  source : Option α
  room : γ

inductive Call (α β γ : Type)
  | send (dest : α) (load : β)
  | receive (source : Option α) (room : γ)
  deriving DecidableEq

structure Transfer (α β γ : Type) where
  sender : α
  receiver : α
  load : β
  room : γ
  deriving DecidableEq

structure State (α β γ : Type) where
  offers : List (Offer α β)
  wants : α → Option (Want α γ)

structure Exchange (α β γ : Type) where
  caller : α
  call : Call α β γ
  transfer : Option (Transfer α β γ)
  deriving DecidableEq

variable {α β γ : Type} [DecidableEq α]

def Accepts (source : Option α) (sender : α) : Prop := ∀ q ∈ source, q = sender

instance (source : Option α) (sender : α) : Decidable (Accepts source sender) :=
  Option.decidableForallMem source

def serve (state : State α β γ) (p : α) :
    Call α β γ → State α β γ × Option (Transfer α β γ)
  | .send dest load =>
      match (state.wants dest).filter fun want => Accepts want.source p with
      | some want =>
          ({ state with wants := Function.update state.wants dest none },
            some ⟨p, dest, load, want.room⟩)
      | none => ({ state with offers := state.offers ++ [⟨p, dest, load⟩] }, none)
  | .receive source room =>
      match state.offers.find? fun offer => offer.dest = p ∧ Accepts source offer.sender with
      | some offer =>
          ({ state with offers := state.offers.filter fun other => other.sender ≠ offer.sender },
            some ⟨offer.sender, p, offer.load, room⟩)
      | none => ({ state with wants := Function.update state.wants p (some ⟨source, room⟩) }, none)

def Free (state : State α β γ) (p : α) : Prop :=
  p ∉ state.offers.map (·.sender) ∧ (state.wants p).isNone

instance (state : State α β γ) (p : α) : Decidable (Free state p) :=
  inferInstanceAs (Decidable (_ ∧ _))

/-- Calls are made by parties that wait for nothing, and hand over what they say. -/
def play [DecidableEq β] [DecidableEq γ] (state : State α β γ) (x : Exchange α β γ) :
    Option (State α β γ) :=
  if Free state x.caller ∧ (serve state x.caller x.call).2 = x.transfer then
    some (serve state x.caller x.call).1
  else none

/-- Nobody waits twice, and no two parties wait for each other to take their message. -/
structure Sound (state : State α β γ) : Prop where
  single : (state.offers.map (·.sender)).Nodup
  apart : ∀ offer ∈ state.offers, state.wants offer.sender = none
  unmatched : ∀ offer ∈ state.offers, ∀ want ∈ state.wants offer.dest,
    ¬ Accepts want.source offer.sender

section Free

variable {α : Type} {state : State α β γ} {p : α}

theorem Free.wants (free : Free state p) : state.wants p = none :=
  Option.isNone_iff_eq_none.mp free.2

theorem Free.other (free : Free state p) {offer : Offer α β} (member : offer ∈ state.offers) :
    offer.sender ≠ p := by
  rintro rfl
  exact free.1 (List.mem_map_of_mem member)

end Free

variable {state state' : State α β γ} {p : α}

theorem serve_cases (state : State α β γ) (p : α) (call : Call α β γ) :
    (∃ dest load want, call = .send dest load ∧ state.wants dest = some want ∧
      Accepts want.source p ∧ serve state p call =
        ({ state with wants := Function.update state.wants dest none },
          some ⟨p, dest, load, want.room⟩)) ∨
    (∃ dest load, call = .send dest load ∧
      (∀ want ∈ state.wants dest, ¬ Accepts want.source p) ∧ serve state p call =
        ({ state with offers := state.offers ++ [⟨p, dest, load⟩] }, none)) ∨
    (∃ source room offer front back, call = .receive source room ∧
      state.offers = front ++ offer :: back ∧ offer.dest = p ∧ Accepts source offer.sender ∧
      (∀ other ∈ front, other.dest = p → ¬ Accepts source other.sender) ∧ serve state p call =
        ({ state with offers := state.offers.filter fun other => other.sender ≠ offer.sender },
          some ⟨offer.sender, p, offer.load, room⟩)) ∨
    (∃ source room, call = .receive source room ∧
      (∀ offer ∈ state.offers, offer.dest = p → ¬ Accepts source offer.sender) ∧
      serve state p call =
        ({ state with wants := Function.update state.wants p (some ⟨source, room⟩) }, none)) := by
  cases call with
  | send dest load =>
      cases found : (state.wants dest).filter fun want => Accepts want.source p with
      | some want =>
          obtain ⟨wanted, accepts⟩ := Option.filter_eq_some_iff.mp found
          refine Or.inl ⟨dest, load, want, rfl, wanted, by simpa using accepts, ?_⟩
          simp only [serve, found]
      | none =>
          refine Or.inr (Or.inl ⟨dest, load, rfl, fun want wanted => ?_, ?_⟩)
          · simpa using Option.filter_eq_none_iff.mp found want wanted
          · simp only [serve, found]
  | receive source room =>
      cases found : state.offers.find? fun offer =>
          offer.dest = p ∧ Accepts source offer.sender with
      | some offer =>
          obtain ⟨fits, front, back, split, others⟩ := List.find?_eq_some_iff_append.mp found
          obtain ⟨isDest, accepts⟩ : offer.dest = p ∧ Accepts source offer.sender := by
            simpa using fits
          refine Or.inr (Or.inr (Or.inl
            ⟨source, room, offer, front, back, rfl, split, isDest, accepts, ?_, ?_⟩))
          · intro other member isDest accepts
            have fits := others other member
            simp [isDest, accepts] at fits
          · simp only [serve, found]
      | none =>
          refine Or.inr (Or.inr (Or.inr ⟨source, room, rfl, fun offer member => ?_, ?_⟩))
          · simpa using List.find?_eq_none.mp found offer member
          · simp only [serve, found]

theorem Sound.serve (sound : Sound state) (free : Free state p) (call : Call α β γ) :
    Sound (serve state p call).1 := by
  rcases serve_cases state p call with ⟨dest, load, want, rfl, wanted, _, served⟩ |
    ⟨dest, load, rfl, refused, served⟩ |
    ⟨source, room, offer, front, back, rfl, split, isDest, _, others, served⟩ |
    ⟨source, room, rfl, none, served⟩
  · rw [served]
    refine ⟨sound.single, fun offer member => ?_, fun offer member want isWant => ?_⟩
    · simp only [Function.update_apply]
      split
      · rfl
      · exact sound.apart offer member
    · simp only [Function.update_apply] at isWant
      split at isWant
      · cases isWant
      · exact sound.unmatched offer member want isWant
  · rw [served]
    refine ⟨?_, fun offer member => ?_, fun offer member want isWant => ?_⟩
    · rw [List.map_append, List.map_singleton]
      exact List.nodup_append.mpr ⟨sound.single, List.nodup_singleton p, by
        rintro sender member _ isP rfl
        have isCaller : sender = p := List.mem_singleton.mp isP
        exact free.1 (isCaller ▸ member)⟩
    · rcases List.mem_append.mp member with old | new
      · exact sound.apart offer old
      · rw [List.mem_singleton.mp new]
        exact free.wants
    · rcases List.mem_append.mp member with old | new
      · exact sound.unmatched offer old want isWant
      · rw [List.mem_singleton.mp new] at isWant ⊢
        exact refused want isWant
  · rw [served]
    refine ⟨?_, fun other member => ?_, fun other member want isWant => ?_⟩
    · exact sound.single.sublist (List.filter_sublist.map _)
    · exact sound.apart other (List.mem_of_mem_filter member)
    · exact sound.unmatched other (List.mem_of_mem_filter member) want isWant
  · rw [served]
    refine ⟨sound.single, fun offer member => ?_, fun offer member want isWant => ?_⟩
    · simp only [Function.update_of_ne (free.other member)]
      exact sound.apart offer member
    · simp only [Function.update_apply] at isWant
      split at isWant
      · rename_i isP
        cases isWant
        exact none offer member isP
      · exact sound.unmatched offer member want isWant

/-! What is sent is handed over, in order. -/

def pending (state : State α β γ) (s d : α) : List β :=
  (state.offers.filter fun offer => offer.sender = s ∧ offer.dest = d).map (·.load)

def sent (s d : α) (x : Exchange α β γ) : List β :=
  match x.call with
  | .send dest load => if x.caller = s ∧ dest = d then [load] else []
  | .receive _ _ => []

def handedOver (s d : α) (x : Exchange α β γ) : List β :=
  match x.transfer with
  | some t => if t.sender = s ∧ t.receiver = d then [t.load] else []
  | none => []

def wanted (state : State α β γ) (d : α) : List γ :=
  match state.wants d with
  | some want => [want.room]
  | none => []

def asked (d : α) (x : Exchange α β γ) : List γ :=
  match x.call with
  | .send _ _ => []
  | .receive _ room => if x.caller = d then [room] else []

def filled (d : α) (x : Exchange α β γ) : List γ :=
  match x.transfer with
  | some t => if t.receiver = d then [t.room] else []
  | none => []

theorem pending_free (free : Free state p) (d : α) : pending state p d = [] := by
  rw [pending, List.filter_eq_nil_iff.mpr]
  · rfl
  · intro offer member
    simp [free.other member]

theorem pending_taken (sound : Sound state) {offer : Offer α β} {front back : List (Offer α β)}
    (split : state.offers = front ++ offer :: back) (s d : α) :
    pending state s d = (if offer.sender = s ∧ offer.dest = d then [offer.load] else []) ++
      pending { state with
        offers := state.offers.filter fun other => other.sender ≠ offer.sender } s d := by
  have single := sound.single
  rw [split, List.map_append, List.map_cons] at single
  obtain ⟨_, uniqueBack, apart⟩ := List.nodup_append.mp single
  have notFront : ∀ other ∈ front, other.sender ≠ offer.sender := fun other member =>
    apart _ (List.mem_map_of_mem member) _ List.mem_cons_self
  have notBack : ∀ other ∈ back, other.sender ≠ offer.sender := by
    intro other member same
    exact (List.nodup_cons.mp uniqueBack).1 (same ▸ List.mem_map_of_mem member)
  have left : state.offers.filter (fun other => other.sender ≠ offer.sender) = front ++ back := by
    rw [split, List.filter_append, List.filter_cons_of_neg (by simp),
      List.filter_eq_self.mpr (by simpa using notFront),
      List.filter_eq_self.mpr (by simpa using notBack)]
  simp only [pending]
  rw [left, split]
  by_cases taken : offer.sender = s ∧ offer.dest = d
  · have noFront : front.filter (fun offer => offer.sender = s ∧ offer.dest = d) = [] := by
      refine List.filter_eq_nil_iff.mpr fun other member both => ?_
      have isS : other.sender = s := (of_decide_eq_true both).1
      exact notFront other member (isS.trans taken.1.symm)
    rw [List.filter_append, List.filter_append, noFront,
      List.filter_cons_of_pos (by simpa using taken)]
    simp [taken]
  · simp [taken]

theorem serve_sent (sound : Sound state) (free : Free state p) (call : Call α β γ) (s d : α) :
    pending state s d ++ sent s d ⟨p, call, (serve state p call).2⟩ =
      handedOver s d ⟨p, call, (serve state p call).2⟩ ++
        pending (serve state p call).1 s d := by
  rcases serve_cases state p call with ⟨dest, load, want, rfl, _, _, served⟩ |
    ⟨dest, load, rfl, _, served⟩ |
    ⟨source, room, offer, front, back, rfl, split, isDest, _, _, served⟩ |
    ⟨source, room, rfl, _, served⟩
  · rw [served]
    have same : pending { state with wants := Function.update state.wants dest none } s d =
      pending state s d := rfl
    simp only [sent, handedOver, same]
    split
    · rename_i both
      rw [← both.1, pending_free free]
      rfl
    · simp
  · rw [served]
    simp only [sent, handedOver, pending, List.filter_append, List.map_append, List.nil_append]
    by_cases both : p = s ∧ dest = d <;> simp [both]
  · rw [served, pending_taken sound split s d]
    simp only [sent, handedOver, List.append_nil, isDest]
  · rw [served]
    simp only [sent, handedOver, List.append_nil, List.nil_append]
    rfl

theorem serve_asked (free : Free state p) (call : Call α β γ) (d : α) :
    wanted state d ++ asked d ⟨p, call, (serve state p call).2⟩ =
      filled d ⟨p, call, (serve state p call).2⟩ ++ wanted (serve state p call).1 d := by
  rcases serve_cases state p call with ⟨dest, load, want, rfl, isWant, _, served⟩ |
    ⟨dest, load, rfl, _, served⟩ |
    ⟨source, room, offer, front, back, rfl, split, isDest, _, _, served⟩ |
    ⟨source, room, rfl, _, served⟩
  · rw [served]
    simp only [asked, filled, wanted, Function.update_apply]
    by_cases same : d = dest
    · simp [same, isWant]
    · have other : dest ≠ d := fun equal => same equal.symm
      simp [same, other]
  · rw [served]
    simp [asked, filled, wanted]
  · rw [served]
    simp only [asked, filled, wanted]
    by_cases same : p = d
    · subst same
      simp [free.wants]
    · simp [same]
  · rw [served]
    simp only [asked, filled, wanted, Function.update_apply]
    by_cases same : p = d
    · subst same
      simp [free.wants]
    · have other : d ≠ p := fun equal => same equal.symm
      simp [same, other]

section Runs

variable [DecidableEq β] [DecidableEq γ] {x : Exchange α β γ} {xs : List (Exchange α β γ)}

theorem play_eq_some : play state x = some state' ↔
    Free state x.caller ∧ x = ⟨x.caller, x.call, (serve state x.caller x.call).2⟩ ∧
      state' = (serve state x.caller x.call).1 := by
  unfold play
  split
  · rename_i both
    obtain ⟨free, same⟩ := both
    rw [same]
    simp [free, eq_comm]
  · rename_i refused
    refine iff_of_false (by simp) ?_
    rintro ⟨free, same, _⟩
    exact refused ⟨free, (congrArg Exchange.transfer same).symm⟩

/-- In a run nobody's message is lost, handed over twice or overtaken by a later one, and no two
parties wait for each other to take their message. -/
theorem run_exchanges (sound : Sound state) (reached : run play state xs = some state') :
    Sound state' ∧
      (∀ s d, pending state s d ++ xs.flatMap (sent s d) =
        xs.flatMap (handedOver s d) ++ pending state' s d) ∧
      ∀ d, wanted state d ++ xs.flatMap (asked d) = xs.flatMap (filled d) ++ wanted state' d := by
  have kept : ∀ (state : State α β γ) x state', Sound state → play state x = some state' →
      Sound state' := by
    intro state x state' sound played
    obtain ⟨free, _, rfl⟩ := play_eq_some.mp played
    exact sound.serve free _
  refine ⟨?_, fun s d => ?_, fun d => ?_⟩
  · exact run_invariant (fun _ _ _ sound _ played => kept _ _ _ sound played) sound along_true
      reached
  · apply run_conserves (fun state => pending state s d) (sent s d) (handedOver s d) _ sound reached
    intro state x state' sound played
    refine ⟨kept _ _ _ sound played, ?_⟩
    obtain ⟨free, same, rfl⟩ := play_eq_some.mp played
    rw [same]
    exact serve_sent sound free _ s d
  · apply run_conserves (fun state => wanted state d) (asked d) (filled d) _ sound reached
    intro state x state' sound played
    refine ⟨kept _ _ _ sound played, ?_⟩
    obtain ⟨free, same, rfl⟩ := play_eq_some.mp played
    rw [same]
    exact serve_asked free _ d

end Runs

end Handshake
