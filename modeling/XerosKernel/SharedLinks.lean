import XerosKernel.IntrusiveList

/-!
Several lists that share one successor function. The nodes that wait are known in the order
in which they began to wait; each carries the key of the list it waits on, and a list is
the part of that order with its key.
-/

namespace IntrusiveList

variable {α ι κ : Type} [DecidableEq κ] {next next' : α → Option α} {head head' : ι → Option α}
  {key key' : α → κ} {name : ι → κ} {live : ι → Prop} {order : List α}

def waiting (key : α → κ) (name : ι → κ) (order : List α) (i : ι) : List α :=
  order.filter fun a => key a = name i

/-- Every list holds the nodes that wait on it. -/
def Threaded (next : α → Option α) (head : ι → Option α) (key : α → κ) (name : ι → κ)
    (live : ι → Prop) (order : List α) : Prop :=
  ∀ i, live i → Chain next (head i) (waiting key name order i)

theorem mem_waiting {i : ι} {a : α} :
    a ∈ waiting key name order i ↔ a ∈ order ∧ key a = name i := by
  simp [waiting]

theorem waiting_congr (kept : ∀ a ∈ order, key' a = key a) (i : ι) :
    waiting key' name order i = waiting key name order i :=
  List.filter_congr fun a isIn => by rw [kept a isIn]

theorem Threaded.congr (threaded : Threaded next head key name live order)
    (links : ∀ a ∈ order, next' a = next a) (heads : ∀ i, live i → head' i = head i)
    (keys : ∀ a ∈ order, key' a = key a) : Threaded next' head' key' name live order := by
  intro i isLive
  rw [waiting_congr keys, heads i isLive]
  exact (threaded i isLive).congr fun a isIn => links a (mem_waiting.mp isIn).1

/-- How a fresh node is hung behind the nodes of a list. -/
inductive Hung (next next' : α → Option α) (old new : Option α) (order nodes : List α) (fresh : α) :
    Prop
  | first (empty : nodes = []) (head : new = some fresh) (links : ∀ a ∈ order, next' a = next a)
  | behind (front : List α) (last : α) (split : nodes = front ++ [last]) (head : new = old)
      (link : next' last = some fresh) (links : ∀ a ∈ order, a ≠ last → next' a = next a)

theorem Hung.chain {start start' : Option α} {nodes : List α} {fresh : α}
    (hung : Hung next next' start start' order nodes fresh) (chain : Chain next start nodes)
    (inOrder : ∀ a ∈ nodes, a ∈ order) (closed : next' fresh = none) :
    Chain next' start' (nodes ++ [fresh]) := by
  cases hung with
  | first empty head links =>
      rw [empty, head]
      exact ⟨rfl, closed⟩
  | behind front last split head link links =>
      rw [split] at chain inOrder ⊢
      rw [head, List.append_assoc]
      refine chain.snoc link closed fun a isIn => links a (inOrder a (by simp [isIn])) ?_
      rintro rfl
      exact (List.nodup_append.mp chain.nodup).2.2 a isIn a (by simp) rfl

theorem Threaded.push {target : ι} {fresh : α}
    (threaded : Threaded next head key name live order) (isLive : live target)
    (named : ∀ i, live i → name i = name target → i = target)
    (keys : ∀ a ∈ order, key' a = key a) (joined : key' fresh = name target)
    (closed : next' fresh = none) (heads : ∀ i, live i → i ≠ target → head' i = head i)
    (hung : Hung next next' (head target) (head' target) order (waiting key name order target)
      fresh) : Threaded next' head' key' name live (order ++ [fresh]) := by
  intro i isLive'
  have split : waiting key' name (order ++ [fresh]) i =
      waiting key name order i ++ if key' fresh = name i then [fresh] else [] := by
    rw [waiting, List.filter_append, ← waiting_congr keys i]
    by_cases joins : key' fresh = name i <;> simp [waiting, joins]
  rw [split]
  by_cases isTarget : i = target
  · subst isTarget
    rw [if_pos joined]
    exact hung.chain (threaded i isLive) (fun a isIn => (mem_waiting.mp isIn).1) closed
  · have apart : key' fresh ≠ name i := by
      intro same
      exact isTarget (named i isLive' (same.symm.trans joined))
    rw [if_neg apart, List.append_nil, heads i isLive' isTarget]
    refine (threaded i isLive').congr fun a isIn => ?_
    have waits := mem_waiting.mp isIn
    cases hung with
    | first empty head links => exact links a waits.1
    | behind front last split head link links =>
        refine links a waits.1 ?_
        rintro rfl
        have lastWaits : a ∈ waiting key name order target := by simp [split]
        exact isTarget (named i isLive' (waits.2.symm.trans (mem_waiting.mp lastWaits).2))

/-- How a node is taken from a list: at its head or behind another node. -/
inductive Unhung (next next' : α → Option α) (old new : Option α) (order nodes : List α)
    (gone : α) : Prop
  | first (rest : List α) (split : nodes = gone :: rest) (head : new = next gone)
      (links : ∀ a ∈ order, a ≠ gone → next' a = next a)
  | behind (front : List α) (before : α) (back : List α)
      (split : nodes = front ++ before :: gone :: back) (head : new = old)
      (link : next' before = next gone)
      (links : ∀ a ∈ order, a ≠ before → a ≠ gone → next' a = next a)

theorem Unhung.chain [DecidableEq α] {start start' : Option α} {nodes : List α} {gone : α}
    (unhung : Unhung next next' start start' order nodes gone) (chain : Chain next start nodes)
    (inOrder : ∀ a ∈ nodes, a ∈ order) : Chain next' start' (nodes.filter (· ≠ gone)) := by
  cases unhung with
  | first rest split head links =>
      rw [split] at chain inOrder ⊢
      have unique := List.nodup_cons.mp chain.nodup
      have left : (gone :: rest).filter (· ≠ gone) = rest := by
        rw [List.filter_cons_of_neg (by simp), List.filter_eq_self]
        intro a isIn
        have other : a ≠ gone := by
          rintro rfl
          exact unique.1 isIn
        simpa using other
      rw [left, head]
      refine chain.2.congr fun a isIn => links a (inOrder a (by simp [isIn])) ?_
      rintro rfl
      exact unique.1 isIn
  | behind front before back split head link links =>
      rw [split] at chain inOrder ⊢
      have unique := chain.nodup
      rw [List.nodup_append, List.nodup_cons, List.nodup_cons] at unique
      obtain ⟨_, ⟨beforeApart, goneApart, _⟩, apart⟩ := unique
      have notGone : ∀ a ∈ front ++ before :: back, a ≠ gone := by
        rintro a isIn rfl
        rcases List.mem_append.mp isIn with inFront | inBack
        · exact apart a inFront a (by simp) rfl
        · rcases List.mem_cons.mp inBack with rfl | inBack
          · exact beforeApart (by simp)
          · exact goneApart inBack
      have left : (front ++ before :: gone :: back).filter (· ≠ gone) =
          front ++ before :: back := by
        have whole : (front ++ before :: back).filter (· ≠ gone) = front ++ before :: back :=
          List.filter_eq_self.mpr fun a isIn => by simpa using notGone a isIn
        rw [← whole]
        simp [List.filter_append, List.filter_cons]
      rw [left, head]
      refine chain.unlink link fun a isIn => links a (inOrder a ?_) ?_ (notGone a ?_)
      · rcases List.mem_append.mp isIn with inFront | inBack
        · simp [inFront]
        · simp [inBack]
      · rintro rfl
        rcases List.mem_append.mp isIn with inFront | inBack
        · exact apart a inFront a (by simp) rfl
        · exact beforeApart (by simp [inBack])
      · rcases List.mem_append.mp isIn with inFront | inBack
        · simp [inFront]
        · simp [inBack]

theorem Threaded.remove [DecidableEq α] {target : ι} {gone : α}
    (threaded : Threaded next head key name live order) (isLive : live target)
    (named : ∀ i, live i → name i = name target → i = target)
    (keys : ∀ a ∈ order, key' a = key a)
    (heads : ∀ i, live i → i ≠ target → head' i = head i)
    (unhung : Unhung next next' (head target) (head' target) order
      (waiting key name order target) gone) :
    Threaded next' head' key' name live (order.filter (· ≠ gone)) := by
  intro i isLive'
  have swap : waiting key' name (order.filter (· ≠ gone)) i =
      (waiting key name order i).filter (· ≠ gone) := by
    rw [← waiting_congr keys i]
    simp only [waiting, List.filter_filter, Bool.and_comm]
  have goneWaits : gone ∈ waiting key name order target := by
    cases unhung with
    | first rest split => simp [split]
    | behind front before back split => simp [split]
  rw [swap]
  by_cases isTarget : i = target
  · subst isTarget
    exact unhung.chain (threaded i isLive) fun a isIn => (mem_waiting.mp isIn).1
  · have apart : ∀ a ∈ waiting key name order i, ∀ b ∈ waiting key name order target, a ≠ b := by
      rintro a waits b waits' rfl
      exact isTarget (named i isLive'
        ((mem_waiting.mp waits).2.symm.trans (mem_waiting.mp waits').2))
    have whole : (waiting key name order i).filter (· ≠ gone) = waiting key name order i :=
      List.filter_eq_self.mpr fun a isIn => by simpa using apart a isIn gone goneWaits
    rw [whole, heads i isLive' isTarget]
    refine (threaded i isLive').congr fun a isIn => ?_
    have inOrder := (mem_waiting.mp isIn).1
    have notGone := apart a isIn gone goneWaits
    cases unhung with
    | first rest split head links => exact links a inOrder notGone
    | behind front before back split head link links =>
        exact links a inOrder (apart a isIn before (by simp [split])) notGone

end IntrusiveList
