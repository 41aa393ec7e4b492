import Mathlib.Data.List.Nodup

/-!
Lists threaded through their own nodes: a node of type `α` carries its successor,
so the list is only a head pointer and a successor function. `Seg` reads a segment
of such a list; a whole list is a segment that ends in `none`.
-/

namespace IntrusiveList

variable {α : Type} {next next' : α → Option α} {head stop : Option α}

/-- The nodes passed when following `next` from `head` until `stop` is reached. -/
def Seg (next : α → Option α) : Option α → List α → Option α → Prop
  | head, [], stop => head = stop
  | head, node :: rest, stop => head = some node ∧ Seg next (next node) rest stop

abbrev Chain (next : α → Option α) (head : Option α) (nodes : List α) : Prop :=
  Seg next head nodes none

instance decidableSeg [DecidableEq α] :
    (head : Option α) → (nodes : List α) → Decidable (Seg next head nodes stop)
  | head, [] => inferInstanceAs (Decidable (head = stop))
  | head, node :: rest =>
      have := decidableSeg (next node) rest
      inferInstanceAs (Decidable (head = some node ∧ Seg next (next node) rest stop))

@[simp] theorem seg_nil : Seg next head [] stop ↔ head = stop := Iff.rfl

@[simp] theorem seg_cons {node : α} {rest : List α} :
    Seg next head (node :: rest) stop ↔ head = some node ∧ Seg next (next node) rest stop :=
  Iff.rfl

theorem seg_append {front back : List α} :
    Seg next head (front ++ back) stop ↔
      ∃ middle, Seg next head front middle ∧ Seg next middle back stop := by
  induction front generalizing head with
  | nil => simp
  | cons node front ih =>
      simp only [List.cons_append, seg_cons, ih]
      constructor
      · rintro ⟨first, middle, left, right⟩
        exact ⟨middle, ⟨first, left⟩, right⟩
      · rintro ⟨middle, ⟨first, left⟩, right⟩
        exact ⟨first, middle, left, right⟩

theorem Seg.congr {nodes : List α} (agree : ∀ node ∈ nodes, next' node = next node)
    (seg : Seg next head nodes stop) : Seg next' head nodes stop := by
  induction nodes generalizing head with
  | nil => exact seg
  | cons node rest ih =>
      refine ⟨seg.1, ?_⟩
      rw [agree node (by simp)]
      exact ih (fun other member => agree other (by simp [member])) seg.2

theorem Seg.head_eq {nodes : List α} (chain : Chain next head nodes) : head = nodes.head? := by
  cases nodes with
  | nil => exact chain
  | cons node rest => exact chain.1

theorem Seg.unique {first second : List α} (left : Chain next head first)
    (right : Chain next head second) : first = second := by
  induction first generalizing head second with
  | nil =>
      cases second with
      | nil => rfl
      | cons node rest =>
          rw [seg_nil.mp left] at right
          simp at right
  | cons node rest ih =>
      cases second with
      | nil =>
          rw [seg_nil.mp right] at left
          simp at left
      | cons other others =>
          have same : node = other := by
            have heads := left.1.symm.trans right.1
            simpa using heads
          subst other
          rw [ih left.2 right.2]

/-- A node met twice would close a cycle, and a cycle never reaches the null pointer. -/
theorem Seg.nodup {nodes : List α} (chain : Chain next head nodes) : nodes.Nodup := by
  induction nodes generalizing head with
  | nil => simp
  | cons node rest ih =>
      refine List.nodup_cons.mpr ⟨?_, ih chain.2⟩
      intro member
      obtain ⟨before, after, split⟩ := List.append_of_mem member
      have tail := chain.2
      rw [split, seg_append] at tail
      obtain ⟨middle, _, again⟩ := tail
      have same : after = rest := Seg.unique again.2 chain.2
      have lengths := congrArg List.length split
      rw [same] at lengths
      simp only [List.length_append, List.length_cons] at lengths
      omega

theorem Seg.not_of_cycle {first second : α} {nodes : List α} (there : next first = some second)
    (back : next second = some first) : ¬ Chain next (some first) nodes := by
  intro chain
  cases nodes with
  | nil => cases chain
  | cons node rest =>
      have isFirst : first = node := Option.some.inj chain.1
      subst isFirst
      have behind : Chain next (some second) rest := there ▸ chain.2
      cases rest with
      | nil => cases behind
      | cons node rest =>
          have isSecond : second = node := Option.some.inj behind.1
          subst isSecond
          have again : Chain next (some first) rest := back ▸ behind.2
          have same := congrArg List.length (Seg.unique again chain)
          simp only [List.length_cons] at same
          omega

theorem Seg.next_of_split {front back : List α} {node : α}
    (chain : Chain next head (front ++ node :: back)) : Chain next (next node) back := by
  obtain ⟨middle, _, tail⟩ := seg_append.mp chain
  exact tail.2

theorem Seg.snoc {front : List α} {last fresh : α}
    (chain : Chain next head (front ++ [last]))
    (link : next' last = some fresh) (close : next' fresh = none)
    (agree : ∀ node ∈ front, next' node = next node) :
    Chain next' head (front ++ [last, fresh]) := by
  obtain ⟨middle, left, right⟩ := seg_append.mp chain
  refine seg_append.mpr ⟨middle, left.congr agree, right.1, ?_⟩
  exact ⟨link, close⟩

theorem Seg.insert {front back : List α} {node fresh : α}
    (chain : Chain next head (front ++ node :: back))
    (link : next' node = some fresh) (pass : next' fresh = next node)
    (agree : ∀ other ∈ front ++ back, next' other = next other) :
    Chain next' head (front ++ node :: fresh :: back) := by
  obtain ⟨middle, left, right⟩ := seg_append.mp chain
  refine seg_append.mpr ⟨middle, left.congr fun other member => agree other (by simp [member]),
    right.1, link, ?_⟩
  rw [pass]
  exact right.2.congr fun other member => agree other (by simp [member])

theorem Seg.unlink {front back : List α} {node gone : α}
    (chain : Chain next head (front ++ node :: gone :: back))
    (link : next' node = next gone)
    (agree : ∀ other ∈ front ++ back, next' other = next other) :
    Chain next' head (front ++ node :: back) := by
  obtain ⟨middle, left, right⟩ := seg_append.mp chain
  refine seg_append.mpr ⟨middle, left.congr fun other member => agree other (by simp [member]),
    right.1, ?_⟩
  rw [link]
  exact right.2.2.congr fun other member => agree other (by simp [member])

end IntrusiveList
