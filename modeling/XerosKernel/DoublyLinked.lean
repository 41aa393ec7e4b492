import XerosKernel.IntrusiveList

/-!
Doubly linked lists threaded through their own nodes. The null pointer closes a list into a
ring: what it links to is the head, and nothing is stored of what links to it. An edit
replaces one stretch of the ring by another.
-/

namespace DoublyLinked

open IntrusiveList

variable {α : Type} {head head' : Option α} {next next' prev prev' : α → Option α}

def follow (head : Option α) (next : α → Option α) : Option α → Option α
  | none => head
  | some node => next node

/-- The backward link of a node, if it is one, leads to `before`. -/
def Back (prev : α → Option α) (before : Option α) : Option α → Prop
  | none => True
  | some node => prev node = before

def Links (head : Option α) (next prev : α → Option α) : List (Option α) → Prop
  | x :: y :: rest => follow head next x = y ∧ Back prev x y ∧ Links head next prev (y :: rest)
  | _ => True

instance decidableLinks [DecidableEq α] : (members : List (Option α)) →
    Decidable (Links head next prev members)
  | [] | [_] => isTrue trivial
  | x :: y :: rest =>
      have := decidableLinks (y :: rest)
      have : Decidable (Back prev x y) := match y with
        | none => isTrue trivial
        | some node => inferInstanceAs (Decidable (prev node = x))
      inferInstanceAs (Decidable (_ ∧ _ ∧ _))

abbrev DList (head : Option α) (next prev : α → Option α) (nodes : List α) : Prop :=
  Links head next prev (none :: nodes.map some ++ [none])

@[simp] theorem links_cons_cons {x y : Option α} {rest : List (Option α)} :
    Links head next prev (x :: y :: rest) ↔
      follow head next x = y ∧ Back prev x y ∧ Links head next prev (y :: rest) := Iff.rfl

@[simp] theorem links_single {x : Option α} : Links head next prev [x] := trivial

theorem links_append {x : Option α} {front back : List (Option α)} :
    Links head next prev (front ++ x :: back) ↔
      Links head next prev (front ++ [x]) ∧ Links head next prev (x :: back) := by
  induction front with
  | nil => simp
  | cons y front ih =>
      cases front with
      | nil => simp [and_assoc]
      | cons z front =>
          simp only [List.cons_append, links_cons_cons] at ih ⊢
          rw [ih]
          simp only [and_assoc]

theorem Links.congr {members : List (Option α)} (links : Links head next prev members)
    (forward : ∀ x ∈ members.dropLast, follow head' next' x = follow head next x)
    (backward : ∀ node, some node ∈ members.tail → prev' node = prev node) :
    Links head' next' prev' members := by
  induction members with
  | nil => trivial
  | cons x rest ih =>
      cases rest with
      | nil => trivial
      | cons y rest =>
          obtain ⟨link, back, links⟩ := links
          refine ⟨?_, ?_, ih links (fun z isIn => forward z (by simp [isIn])) fun node isIn =>
            backward node ?_⟩
          · rw [forward x (by simp), link]
          · cases y with
            | none => trivial
            | some node => exact (backward node (by simp)).trans back
          · exact List.mem_cons_of_mem y isIn

theorem DList.chain {nodes : List α} (list : DList head next prev nodes) :
    Chain next head nodes := by
  suffices step : ∀ (x : Option α) nodes,
      Links head next prev (x :: nodes.map some ++ [none]) → Chain next (follow head next x) nodes
    from step none nodes list
  intro x nodes links
  induction nodes generalizing x with
  | nil => exact links.1
  | cons node rest ih => exact ⟨links.1, ih (some node) links.2.2⟩

theorem ring_split (front middle back : List α) :
    ∃ before after, none :: (front ++ middle ++ back).map some ++ [none] =
        before ++ front.getLast? :: middle.map some ++ back.head? :: after ∧
      (before ++ [front.getLast?] = none :: front.map some) ∧
      (back.head? :: after = back.map some ++ [none]) := by
  have left : ∃ before, before ++ [front.getLast?] = none :: front.map some := by
    rcases List.eq_nil_or_concat front with rfl | ⟨front, last, rfl⟩
    · exact ⟨[], rfl⟩
    · exact ⟨none :: front.map some, by simp⟩
  have right : ∃ after, back.head? :: after = back.map some ++ [none] := by
    cases back with
    | nil => exact ⟨[], rfl⟩
    | cons node rest => exact ⟨rest.map some ++ [none], rfl⟩
  obtain ⟨before, left⟩ := left
  obtain ⟨after, right⟩ := right
  refine ⟨before, after, ?_, left, right⟩
  have joined : before ++ front.getLast? :: middle.map some ++ back.head? :: after =
      (before ++ [front.getLast?]) ++ middle.map some ++ (back.head? :: after) := by simp
  rw [joined, left, right]
  simp

theorem DList.links_at {front back : List α} {node : α}
    (list : DList head next prev (front ++ node :: back)) :
    next node = back.head? ∧ prev node = front.getLast? := by
  obtain ⟨before, after, ring, _, _⟩ := ring_split front [node] back
  rw [List.append_assoc, List.singleton_append] at ring
  rw [DList, ring, List.append_assoc, List.cons_append] at list
  have middle := (links_append.mp list).2
  simp only [List.map_cons, List.map_nil, List.cons_append, List.nil_append, links_cons_cons]
    at middle
  exact ⟨middle.2.2.1, middle.2.1⟩

/-- The edit: the stretch between `front` and `back` is replaced. -/
theorem DList.splice {front old new back : List α}
    (list : DList head next prev (front ++ old ++ back))
    (middle : Links head' next' prev' (front.getLast? :: new.map some ++ [back.head?]))
    (kept : front ≠ [] → head' = head)
    (forward : ∀ node ∈ front.dropLast ++ back, next' node = next node)
    (backward : ∀ node ∈ front ++ back.tail, prev' node = prev node) :
    DList head' next' prev' (front ++ new ++ back) := by
  obtain ⟨before, after, ring, left, right⟩ := ring_split front old back
  obtain ⟨before', after', ring', left', right'⟩ := ring_split front new back
  have sameBefore : before' = before := List.append_cancel_right (left'.trans left.symm)
  have sameAfter : after' = after := (List.cons.inj (right'.trans right.symm)).2
  rw [sameBefore, sameAfter] at ring'
  rw [DList, ring, List.append_assoc, List.cons_append, links_append] at list
  obtain ⟨first, rest⟩ := list
  have last : Links head next prev (back.head? :: after) := by
    have apart : front.getLast? :: (old.map some ++ back.head? :: after) =
        (front.getLast? :: old.map some) ++ back.head? :: after := rfl
    rw [apart, links_append] at rest
    exact rest.2
  rw [DList, ring', List.append_assoc, List.cons_append, links_append]
  constructor
  · rw [left] at first ⊢
    refine first.congr ?_ fun node isIn => backward node ?_
    · intro x isIn
      cases x with
      | none =>
          refine kept ?_
          rintro rfl
          simp at isIn
      | some node =>
          refine forward node (List.mem_append_left _ ?_)
          rcases List.eq_nil_or_concat front with rfl | ⟨inner, final, rfl⟩
          · simp at isIn
          · have dropped : (none :: (inner.concat final).map some).dropLast =
                none :: inner.map some := by
              rw [List.concat_eq_append, List.map_append, ← List.cons_append]
              exact List.dropLast_concat
            rw [dropped] at isIn
            simpa using isIn
    · have inFront : node ∈ front := by simpa using isIn
      exact List.mem_append_left _ inFront
  · have apart : front.getLast? :: (new.map some ++ back.head? :: after) =
        (front.getLast? :: new.map some) ++ back.head? :: after := rfl
    rw [apart, links_append]
    refine ⟨middle, ?_⟩
    rw [right] at last ⊢
    refine last.congr ?_ fun node isIn => backward node ?_
    · intro x isIn
      rw [List.dropLast_concat] at isIn
      obtain ⟨node, inBack, rfl⟩ := List.mem_map.mp isIn
      exact forward node (List.mem_append_right _ inBack)
    · have inTail : node ∈ back.tail := by
        cases back with
        | nil => simp at isIn
        | cons first rest => simpa using isIn
      exact List.mem_append_right _ inTail

theorem DList.cut {front back : List α} {node : α}
    (list : DList head next prev (front ++ node :: back)) (first : prev' node = none)
    (same : ∀ other ∈ back, prev' other = prev other) :
    DList (some node) next prev' (node :: back) := by
  have shape : none :: (front ++ node :: back).map some ++ [none] =
      (none :: front.map some) ++ some node :: (back.map some ++ [none]) := by simp
  rw [DList, shape, links_append] at list
  refine ⟨rfl, first, list.2.congr ?_ ?_⟩
  · intro x isIn
    rw [← List.cons_append, List.dropLast_concat, ← List.map_cons] at isIn
    obtain ⟨other, _, rfl⟩ := List.mem_map.mp isIn
    rfl
  · intro other isIn
    exact same other (by simpa using isIn)

end DoublyLinked
