import XerosKernel.MsgCore
import XerosKernel.ReadyQueue
import XerosKernel.SharedLinks

/-!
The queues of blocked senders. A process that blocks in `send` is appended to the queue of
its destination, and `recv` and `recvAny` unlink the sender they serve, as long as a sender
that blocks does not bring an old link along.
-/

namespace XerosKernel

open IntrusiveList

def Pcb.mail (pcb : Pcb) : Pcb :=
  { pid := pcb.pid, waitingPid := pcb.waitingPid, senderQueue := pcb.senderQueue,
    senderNext := pcb.senderNext }

def sendersTo (kernel : Kernel) (order : List Slot) (dst : Slot) : List Slot :=
  waiting (fun q => (kernel.proctab q).waitingPid) (fun i => (kernel.proctab i).pid) order dst

/-- Processes are told apart by their numbers. -/
structure Named (kernel : Kernel) : Prop where
  distinct : ∀ i j, (kernel.proctab i).state ≠ .stopped → (kernel.proctab j).state ≠ .stopped →
    (kernel.proctab i).pid = (kernel.proctab j).pid → i = j

/-- The blocked senders, in the order in which they blocked, and the queues they are on. -/
structure Mail (kernel : Kernel) (order : List Slot) : Prop where
  unique : order.Nodup
  blocked : ∀ q, q ∈ order ↔ (kernel.proctab q).state = .blockedSend
  queues : Threaded kernel.senderLink (fun i => (kernel.proctab i).senderQueue)
    (fun q => (kernel.proctab q).waitingPid) (fun i => (kernel.proctab i).pid)
    (fun i => (kernel.proctab i).state ≠ .stopped) order

structure Queued (kernel : Kernel) (rq : List Slot) : Prop where
  queue : ReadyQueue kernel rq
  state : ∀ q ∈ rq, (kernel.proctab q).state = .ready

variable {kernel kernel' : Kernel} {p q dst src : Slot} {order rq : List Slot}

/-! The ready queue. -/

namespace Queued

theorem absent (queued : Queued kernel rq) (state : (kernel.proctab q).state ≠ .ready) :
    q ∉ rq := fun isIn => state (queued.state q isIn)

theorem ready (queued : Queued kernel rq) (absent : q ∉ rq) :
    Queued (ready kernel q) (rq ++ [q]) := by
  refine ⟨queued.queue.append absent, fun i isIn => ?_⟩
  rw [ready_proctab]
  rcases List.mem_append.mp isIn with old | new
  · have other : i ≠ q := fun same => absent (same ▸ old)
    simpa [other] using queued.state i old
  · simp [List.mem_singleton.mp new]

theorem congr (queued : Queued kernel rq) (head : kernel'.head = kernel.head)
    (tail : kernel'.tail = kernel.tail) (link : ∀ i, kernel'.link i = kernel.link i)
    (state : ∀ i ∈ rq, (kernel'.proctab i).state = (kernel.proctab i).state) :
    Queued kernel' rq :=
  ⟨queued.queue.congr head tail fun i _ => link i,
    fun i isIn => (state i isIn).trans (queued.state i isIn)⟩

theorem modify (queued : Queued kernel rq) (write : Pcb → Pcb)
    (next : ∀ pcb, (write pcb).next = pcb.next)
    (state : q ∈ rq → (write (kernel.proctab q)).state = (kernel.proctab q).state) :
    Queued (kernel.modify q write) rq := by
  refine queued.congr rfl rfl (fun i => kernel.modify_same q write (·.next) (next _) i) ?_
  intro i isIn
  rw [Kernel.modify_proctab]
  split
  · rename_i isQ
    subst isQ
    exact state isIn
  · rfl

theorem pop {rest : List Slot} (queued : Queued kernel (q :: rest)) :
    next kernel = some (popped kernel q, q) ∧ Queued (popped kernel q) rest ∧ q ∉ rest ∧
      ((popped kernel q).proctab q).state = .ready := by
  obtain ⟨taken, queue⟩ := queued.queue.next_cons
  have state : ∀ i, ((popped kernel q).proctab i).state = (kernel.proctab i).state := fun i =>
    Kernel.modify_same _ q (fun pcb => { pcb with next := none, prev := none }) (·.state) rfl i
  refine ⟨taken, ⟨queue, fun i isIn => ?_⟩, (List.nodup_cons.mp queued.queue.nodup).1, ?_⟩
  · rw [state]
    exact queued.state i (by simp [isIn])
  · rw [state]
    exact queued.state q (by simp)

end Queued

/-! Writes that the sender queues do not depend on. -/

theorem ready_mail (kernel : Kernel) (p i : Slot) :
    ((ready kernel p).proctab i).mail = (kernel.proctab i).mail := by
  rw [ready_proctab]
  rfl

theorem ready_state (kernel : Kernel) (p i : Slot) : ((ready kernel p).proctab i).state =
    if i = p then .ready else (kernel.proctab i).state := by
  rw [ready_proctab]

theorem popped_mail (kernel : Kernel) (p i : Slot) :
    ((popped kernel p).proctab i).mail = (kernel.proctab i).mail :=
  Kernel.modify_same _ p (fun pcb => { pcb with next := none, prev := none }) Pcb.mail rfl i

theorem popped_state (kernel : Kernel) (p i : Slot) :
    ((popped kernel p).proctab i).state = (kernel.proctab i).state :=
  Kernel.modify_same _ p (fun pcb => { pcb with next := none, prev := none }) (·.state) rfl i

theorem Named.of_same (named : Named kernel)
    (pid : ∀ i, (kernel'.proctab i).pid = (kernel.proctab i).pid)
    (stopped : ∀ i, (kernel'.proctab i).state = .stopped ↔ (kernel.proctab i).state = .stopped) :
    Named kernel' := by
  refine ⟨fun i j liveI liveJ pids => ?_⟩
  rw [pid, pid] at pids
  rw [ne_eq, stopped] at liveI liveJ
  exact named.distinct i j liveI liveJ pids

structure SameMail (kernel kernel' : Kernel) : Prop where
  mail : ∀ i, (kernel'.proctab i).mail = (kernel.proctab i).mail
  blocked : ∀ i, (kernel'.proctab i).state = .blockedSend ↔
    (kernel.proctab i).state = .blockedSend
  stopped : ∀ i, (kernel'.proctab i).state = .stopped ↔ (kernel.proctab i).state = .stopped

namespace SameMail

theorem pid (same : SameMail kernel kernel') (i : Slot) :
    (kernel'.proctab i).pid = (kernel.proctab i).pid := by
  have mail := congrArg Pcb.pid (same.mail i)
  exact mail

theorem waitingPid (same : SameMail kernel kernel') (i : Slot) :
    (kernel'.proctab i).waitingPid = (kernel.proctab i).waitingPid := by
  have mail := congrArg Pcb.waitingPid (same.mail i)
  exact mail

theorem senderQueue (same : SameMail kernel kernel') (i : Slot) :
    (kernel'.proctab i).senderQueue = (kernel.proctab i).senderQueue := by
  have mail := congrArg Pcb.senderQueue (same.mail i)
  exact mail

theorem senderLink (same : SameMail kernel kernel') (i : Slot) :
    kernel'.senderLink i = kernel.senderLink i := by
  have mail := congrArg Pcb.senderNext (same.mail i)
  exact mail

theorem trans {kernel'' : Kernel} (first : SameMail kernel kernel')
    (second : SameMail kernel' kernel'') : SameMail kernel kernel'' :=
  ⟨fun i => (second.mail i).trans (first.mail i),
    fun i => (second.blocked i).trans (first.blocked i),
    fun i => (second.stopped i).trans (first.stopped i)⟩

theorem named (same : SameMail kernel kernel') (named : Named kernel) : Named kernel' :=
  named.of_same same.pid same.stopped

theorem sendersTo (same : SameMail kernel kernel') :
    sendersTo kernel' order dst = sendersTo kernel order dst := by
  simp only [XerosKernel.sendersTo, waiting, same.waitingPid, same.pid]

theorem transfer (same : SameMail kernel kernel') (mail : Mail kernel order) :
    Mail kernel' order := by
  refine ⟨mail.unique, fun q => (mail.blocked q).trans (same.blocked q).symm, ?_⟩
  intro i live
  rw [ne_eq, same.stopped] at live
  have chain := mail.queues i live
  change Chain kernel'.senderLink (kernel'.proctab i).senderQueue (XerosKernel.sendersTo kernel' order i)
  rw [same.senderQueue, same.sendersTo]
  exact chain.congr fun a _ => same.senderLink a

theorem ready (kernel : Kernel) (live : (kernel.proctab p).state ≠ .stopped)
    (free : (kernel.proctab p).state ≠ .blockedSend) : SameMail kernel (ready kernel p) := by
  refine ⟨ready_mail kernel p, fun i => ?_, fun i => ?_⟩
  · rw [ready_state]
    split
    · rename_i isP
      simp [isP, free]
    · rfl
  · rw [ready_state]
    split
    · rename_i isP
      simp [isP, live]
    · rfl

theorem modify (kernel : Kernel) (write : Pcb → Pcb)
    (mail : ∀ pcb, (write pcb).mail = pcb.mail)
    (blocked : (write (kernel.proctab p)).state = .blockedSend ↔
      (kernel.proctab p).state = .blockedSend)
    (stopped : (write (kernel.proctab p)).state = .stopped ↔
      (kernel.proctab p).state = .stopped) : SameMail kernel (kernel.modify p write) := by
  refine ⟨kernel.modify_same p write Pcb.mail (mail _), fun i => ?_, fun i => ?_⟩
  · rw [Kernel.modify_proctab]
    split
    · rename_i isP
      subst isP
      exact blocked
    · rfl
  · rw [Kernel.modify_proctab]
    split
    · rename_i isP
      subst isP
      exact stopped
    · rfl

end SameMail

/-! The loops. -/

theorem lastSender_of_chain {front : List Slot} {first last : Slot} {fuel : Nat}
    (chain : Chain kernel.senderLink (some first) (front ++ [last]))
    (enough : front.length < fuel) : lastSender kernel fuel first = some last := by
  induction front generalizing first fuel with
  | nil =>
      obtain ⟨fuel, rfl⟩ := Nat.exists_eq_add_one_of_ne_zero (Nat.ne_of_gt enough)
      have isLast : first = last := Option.some.inj chain.1
      subst isLast
      have ends : (kernel.proctab first).senderNext = none := chain.2
      simp [lastSender, ends]
  | cons node front ih =>
      obtain ⟨fuel, rfl⟩ := Nat.exists_eq_add_one_of_ne_zero (Nat.ne_of_gt (Nat.zero_lt_of_lt enough))
      have isNode : first = node := Option.some.inj chain.1
      subst isNode
      have rest : Chain kernel.senderLink (kernel.senderLink first) (front ++ [last]) := chain.2
      obtain ⟨behind, link⟩ : ∃ behind, kernel.senderLink first = some behind := by
        cases front with
        | nil => exact ⟨last, rest.1⟩
        | cons behind _ => exact ⟨behind, rest.1⟩
      rw [link] at rest
      have more : (kernel.proctab first).senderNext = some behind := link
      simp only [lastSender, more]
      exact ih rest (by simpa using enough)

theorem senderBefore_of_chain {front back : List Slot} {first before target : Slot} {fuel : Nat}
    (chain : Chain kernel.senderLink (some first) (front ++ before :: target :: back))
    (others : ∀ node ∈ front ++ [before],
      (kernel.proctab node).pid ≠ (kernel.proctab target).pid)
    (enough : front.length < fuel) :
    senderBefore kernel (kernel.proctab target).pid fuel first = some before := by
  induction front generalizing first fuel with
  | nil =>
      obtain ⟨fuel, rfl⟩ := Nat.exists_eq_add_one_of_ne_zero (Nat.ne_of_gt enough)
      have isBefore : first = before := Option.some.inj chain.1
      subst isBefore
      have link : (kernel.proctab first).senderNext = some target := chain.2.1
      simp [senderBefore, link]
  | cons node front ih =>
      obtain ⟨fuel, rfl⟩ := Nat.exists_eq_add_one_of_ne_zero (Nat.ne_of_gt (Nat.zero_lt_of_lt enough))
      have isNode : first = node := Option.some.inj chain.1
      subst isNode
      have rest : Chain kernel.senderLink (kernel.senderLink first)
          (front ++ before :: target :: back) := chain.2
      obtain ⟨behind, isIn, link⟩ : ∃ behind ∈ front ++ [before],
          kernel.senderLink first = some behind := by
        cases front with
        | nil => exact ⟨before, by simp, rest.1⟩
        | cons behind _ => exact ⟨behind, by simp, rest.1⟩
      rw [link] at rest
      have more : (kernel.proctab first).senderNext = some behind := link
      have other := others behind (by simp only [List.cons_append, List.mem_cons]; exact Or.inr isIn)
      simp only [senderBefore, more, if_neg other]
      exact ih rest (fun node isIn' => others node
        (by simp only [List.cons_append, List.mem_cons]; exact Or.inr isIn'))
        (by simpa using enough)

/-! The invariant between two calls. -/

/-- The kernel while `p` runs: the ready queue and the sender queues are in order, and `p` is
on neither. -/
structure Settled (kernel : Kernel) (p : Slot) (rq order : List Slot) : Prop where
  named : Named kernel
  mail : Mail kernel order
  queued : Queued kernel rq
  running : (kernel.proctab p).state = .ready
  absent : p ∉ rq

structure Served (kernel : Kernel) (rq order : List Slot) : Prop where
  named : Named kernel
  mail : Mail kernel order
  queued : Queued kernel rq

theorem Mail.of_threaded (unique : order.Nodup)
    (blocked : ∀ q, q ∈ order ↔ (kernel'.proctab q).state = .blockedSend)
    (pid : ∀ i, (kernel'.proctab i).pid = (kernel.proctab i).pid)
    (stopped : ∀ i, (kernel'.proctab i).state = .stopped ↔ (kernel.proctab i).state = .stopped)
    (threaded : Threaded kernel'.senderLink (fun i => (kernel'.proctab i).senderQueue)
      (fun q => (kernel'.proctab q).waitingPid) (fun i => (kernel.proctab i).pid)
      (fun i => (kernel.proctab i).state ≠ .stopped) order) : Mail kernel' order := by
  have names : (fun i => (kernel'.proctab i).pid) = fun i => (kernel.proctab i).pid := funext pid
  have lives : (fun i => (kernel'.proctab i).state ≠ .stopped) =
      fun i => (kernel.proctab i).state ≠ .stopped :=
    funext fun i => propext (not_congr (stopped i))
  refine ⟨unique, blocked, ?_⟩
  rw [names, lives]
  exact threaded

def awaiting (kernel : Kernel) (p : Slot) (waitingPid buffer buffer_len : Word) : Kernel :=
  kernel.modify p fun pcb =>
    { pcb with
      state := .blockedRecv, waitingPid := waitingPid, buffer_len := buffer_len,
      buffer := buffer }

structure Parks (kernel kernel' : Kernel) (p dst : Slot) : Prop where
  state : ∀ i, (kernel'.proctab i).state =
    if i = p then .blockedSend else (kernel.proctab i).state
  pid : ∀ i, (kernel'.proctab i).pid = (kernel.proctab i).pid
  waitingPid : ∀ i, (kernel'.proctab i).waitingPid =
    if i = p then (kernel.proctab dst).pid else (kernel.proctab i).waitingPid

theorem Parks.modify (parks : Parks kernel kernel' p dst) (write : Pcb → Pcb)
    (state : ∀ pcb, (write pcb).state = pcb.state) (pid : ∀ pcb, (write pcb).pid = pcb.pid)
    (waitingPid : ∀ pcb, (write pcb).waitingPid = pcb.waitingPid) :
    Parks kernel (kernel'.modify q write) p dst :=
  ⟨fun i => (kernel'.modify_same q write (·.state) (state _) i).trans (parks.state i),
    fun i => (kernel'.modify_same q write (·.pid) (pid _) i).trans (parks.pid i),
    fun i => (kernel'.modify_same q write (·.waitingPid) (waitingPid _) i).trans
      (parks.waitingPid i)⟩

namespace Settled

variable {buffer buffer_len : Word}

theorem live (settled : Settled kernel p rq order) : (kernel.proctab p).state ≠ .stopped := by
  rw [settled.running]
  decide

theorem notBlocked (settled : Settled kernel p rq order) : p ∉ order := by
  rw [settled.mail.blocked, settled.running]
  decide

theorem other (settled : Settled kernel p rq order) {a : Slot} (isIn : a ∈ order) : a ≠ p := by
  rintro rfl
  exact settled.notBlocked isIn

theorem named_eq (settled : Settled kernel p rq order) :
    ∀ i, (kernel.proctab i).state ≠ .stopped → (kernel.proctab i).pid = (kernel.proctab p).pid →
      i = p := fun i live same => settled.named.distinct i p live settled.live same

theorem registers (settled : Settled kernel p rq order) (waitingPid : Word) :
    Served (awaiting kernel p waitingPid buffer buffer_len) rq order := by
  have pid := kernel.modify_same p (fun pcb => { pcb with
    state := .blockedRecv, waitingPid := waitingPid, buffer_len := buffer_len,
    buffer := buffer }) (·.pid) rfl
  have others : ∀ i ≠ p, (awaiting kernel p waitingPid buffer buffer_len).proctab i =
      kernel.proctab i := fun i other => by simp [awaiting, other]
  have stopped : ∀ i, ((awaiting kernel p waitingPid buffer buffer_len).proctab i).state =
      .stopped ↔ (kernel.proctab i).state = .stopped := by
    intro i
    by_cases isP : i = p
    · simp [awaiting, isP, settled.live]
    · rw [others i isP]
  refine ⟨settled.named.of_same pid stopped, ?_, ?_⟩
  · refine Mail.of_threaded settled.mail.unique (fun q => ?_) pid stopped ?_
    · by_cases isP : q = p
      · simp [awaiting, isP, settled.notBlocked]
      · rw [others q isP]
        exact settled.mail.blocked q
    · refine settled.mail.queues.congr ?_ ?_ ?_
      · exact fun a _ => kernel.modify_same p _ (·.senderNext) rfl a
      · exact fun i _ => kernel.modify_same p _ (·.senderQueue) rfl i
      · exact fun a isIn => congrArg Pcb.waitingPid (others a (settled.other isIn))
  · exact settled.queued.modify _ (fun _ => rfl) fun isIn => absurd isIn settled.absent

theorem parks (settled : Settled kernel p rq order) (live : (kernel.proctab dst).state ≠ .stopped)
    (parks : Parks kernel kernel' p dst)
    (queues : ∀ i ≠ dst, (kernel'.proctab i).senderQueue = (kernel.proctab i).senderQueue)
    (closed : kernel'.senderLink p = none)
    (hung : Hung kernel.senderLink kernel'.senderLink (kernel.proctab dst).senderQueue
      (kernel'.proctab dst).senderQueue order (sendersTo kernel order dst) p) :
    Named kernel' ∧ Mail kernel' (order ++ [p]) := by
  have stopped : ∀ i, (kernel'.proctab i).state = .stopped ↔
      (kernel.proctab i).state = .stopped := by
    intro i
    rw [parks.state]
    split
    · rename_i isP
      simp [isP, settled.live]
    · rfl
  refine ⟨settled.named.of_same parks.pid stopped,
    Mail.of_threaded ?_ (fun q => ?_) parks.pid stopped ?_⟩
  · exact List.nodup_append.mpr ⟨settled.mail.unique, by simp, by
      rintro a isIn b isP rfl
      exact settled.notBlocked (List.mem_singleton.mp isP ▸ isIn)⟩
  · rw [parks.state, List.mem_append, List.mem_singleton]
    by_cases isP : q = p
    · simp [isP]
    · simp [isP, settled.mail.blocked q]
  · refine settled.mail.queues.push live ?_ (fun a isIn => ?_) ?_ closed
      (fun i _ other => queues i other) hung
    · exact fun i liveI same => settled.named.distinct i dst liveI live same
    · rw [parks.waitingPid, if_neg (settled.other isIn)]
    · rw [parks.waitingPid, if_pos rfl]

end Settled

/-! The calls. -/

def Expects (kernel : Kernel) (src dst : Slot) : Prop :=
  (kernel.proctab dst).state = .blockedRecv ∧
    ((kernel.proctab dst).waitingPid = (kernel.proctab src).pid ∨
      (kernel.proctab dst).waitingPid = -1)

instance (kernel : Kernel) (src dst : Slot) : Decidable (Expects kernel src dst) :=
  inferInstanceAs (Decidable (_ ∧ _))

def Delivers (kernel : Kernel) (src dst : Slot) : Prop :=
  ((kernel.proctab dst).state = .blockedRecv ∧
    (kernel.proctab dst).waitingPid = (kernel.proctab src).pid) ∨
      (kernel.proctab dst).waitingPid = -1

instance (kernel : Kernel) (src dst : Slot) : Decidable (Delivers kernel src dst) :=
  inferInstanceAs (Decidable (_ ∨ _))

/-- No old registration of `dst` stands for a receiver of any message. -/
def Registered (kernel : Kernel) (dst : Slot) : Prop :=
  (kernel.proctab dst).waitingPid = -1 → (kernel.proctab dst).state = .blockedRecv

instance (kernel : Kernel) (dst : Slot) : Decidable (Registered kernel dst) :=
  inferInstanceAs (Decidable (_ → _))

theorem delivers_iff (registered : Registered kernel dst) :
    Delivers kernel src dst ↔ Expects kernel src dst := by
  unfold Delivers Expects
  constructor
  · rintro (⟨state, pid⟩ | any)
    · exact ⟨state, Or.inl pid⟩
    · exact ⟨registered any, Or.inr any⟩
  · rintro ⟨state, pid | any⟩
    · exact Or.inl ⟨state, pid⟩
    · exact Or.inr any

def parked (kernel : Kernel) (src dst : Slot) (buffer buffer_len : Word) : Kernel :=
  kernel.modify src fun pcb =>
    { pcb with
      state := .blockedSend, waitingPid := (kernel.proctab dst).pid, buffer_len := buffer_len,
      buffer := buffer }

structure Untouched (kernel kernel' : Kernel) (dst : Slot) : Prop where
  mem : kernel'.mem = kernel.mem
  head : kernel'.head = kernel.head
  tail : kernel'.tail = kernel.tail
  ret : (kernel'.proctab dst).ret = (kernel.proctab dst).ret
  state : (kernel'.proctab dst).state = (kernel.proctab dst).state

theorem parked_parks (kernel : Kernel) (src dst : Slot) (buffer buffer_len : Word) :
    Parks kernel (parked kernel src dst buffer buffer_len) src dst := by
  have park : ∀ i, (parked kernel src dst buffer buffer_len).proctab i =
      if i = src then { kernel.proctab i with
        state := .blockedSend, waitingPid := (kernel.proctab dst).pid, buffer_len := buffer_len,
        buffer := buffer } else kernel.proctab i := fun _ => rfl
  refine ⟨fun i => ?_, fun i => ?_, fun i => ?_⟩
  all_goals
    rw [park]
    split <;> rfl

theorem parked_untouched {buffer buffer_len : Word} (notSelf : dst ≠ src) :
    Untouched kernel (parked kernel src dst buffer buffer_len) dst := by
  refine ⟨rfl, rfl, rfl, ?_, ?_⟩ <;> simp [parked, notSelf]

theorem Untouched.modify {write : Pcb → Pcb} (untouched : Untouched kernel kernel' dst)
    (ret : ∀ pcb, (write pcb).ret = pcb.ret) (state : ∀ pcb, (write pcb).state = pcb.state) :
    Untouched kernel (kernel'.modify q write) dst :=
  ⟨untouched.mem, untouched.head, untouched.tail,
    (kernel'.modify_same q write (·.ret) (ret _) dst).trans untouched.ret,
    (kernel'.modify_same q write (·.state) (state _) dst).trans untouched.state⟩

section Calls

variable {buffer buffer_len : Word}

/-- The list walk that ends `send`. -/
def linkSender (kernel : Kernel) (p dst : Slot) : Option Slot → Option (Word × Kernel)
  | none => some (0, kernel.modify dst fun pcb => { pcb with senderQueue := some p })
  | some first =>
      match lastSender kernel loopFuel first with
      | none => none
      | some temp => some (0, kernel.modify temp fun pcb => { pcb with senderNext := some p })

theorem linkSender_behind {queue : Option Slot} {front : List Slot} {last : Slot} (p dst : Slot)
    (chain : Chain kernel.senderLink queue (front ++ [last])) :
    linkSender kernel p dst queue =
      some (0, kernel.modify last fun pcb => { pcb with senderNext := some p }) := by
  obtain ⟨first, rfl⟩ : ∃ first, queue = some first := by
    cases front with
    | nil => exact ⟨last, chain.1⟩
    | cons first _ => exact ⟨first, chain.1⟩
  have enough : front.length < loopFuel := by
    have bound := length_lt_loopFuel chain.nodup
    simp only [List.length_append, List.length_singleton] at bound
    omega
  simp only [linkSender, lastSender_of_chain chain enough]

theorem send_parks (settled : Settled kernel p rq order)
    (live : (kernel.proctab dst).state ≠ .stopped) (notSelf : dst ≠ p)
    (refused : ¬ Delivers kernel p dst) :
    ∃ kernel', send kernel p dst buffer buffer_len = some (0, kernel') ∧
      Untouched kernel kernel' dst ∧ ((kernel.proctab p).senderNext = none →
        Served kernel' rq (order ++ [p])) := by
  have chain : Chain kernel.senderLink (kernel.proctab dst).senderQueue
      (sendersTo kernel order dst) := settled.mail.queues dst live
  have untouched : Untouched kernel (parked kernel p dst buffer buffer_len) dst :=
    parked_untouched notSelf
  have parks := parked_parks kernel p dst buffer buffer_len
  have links : ∀ i, (parked kernel p dst buffer buffer_len).senderLink i = kernel.senderLink i :=
    kernel.modify_same p _ (·.senderNext) rfl
  have queue : ∀ i, ((parked kernel p dst buffer buffer_len).proctab i).senderQueue =
      (kernel.proctab i).senderQueue := kernel.modify_same p _ (·.senderQueue) rfl
  have queued : Queued (parked kernel p dst buffer buffer_len) rq :=
    settled.queued.modify _ (fun _ => rfl) fun isIn => absurd isIn settled.absent
  have test : send kernel p dst buffer buffer_len =
      linkSender (parked kernel p dst buffer buffer_len) p dst
        (kernel.proctab dst).senderQueue := by
    rw [← queue dst]
    exact if_neg refused
  rcases List.eq_nil_or_concat (sendersTo kernel order dst) with nobody | ⟨front, last, split⟩
  · rw [nobody] at chain
    have empty : (kernel.proctab dst).senderQueue = none := chain
    refine ⟨(parked kernel p dst buffer buffer_len).modify dst fun pcb =>
      { pcb with senderQueue := some p }, ?_, untouched.modify (fun _ => rfl) fun _ => rfl,
      fun clean => ?_⟩
    · rw [test, empty]
      rfl
    · have linked : ∀ i, ((parked kernel p dst buffer buffer_len).modify dst fun pcb =>
          { pcb with senderQueue := some p }).senderLink i = kernel.senderLink i := fun i =>
        (Kernel.modify_same _ dst (fun pcb => { pcb with senderQueue := some p }) (·.senderNext)
          rfl i).trans (links i)
      obtain ⟨named, mail⟩ := settled.parks live
        (parks.modify (fun pcb => { pcb with senderQueue := some p }) (fun _ => rfl)
          (fun _ => rfl) fun _ => rfl)
        (fun i other => by rw [Kernel.modify_proctab, if_neg other, queue])
        ((linked p).trans clean) (.first nobody (by simp) fun a _ => linked a)
      exact ⟨named, mail, queued.modify _ (fun _ => rfl) fun _ => rfl⟩
  · rw [List.concat_eq_append] at split
    rw [split] at chain
    refine ⟨(parked kernel p dst buffer buffer_len).modify last fun pcb =>
      { pcb with senderNext := some p }, ?_, untouched.modify (fun _ => rfl) fun _ => rfl,
      fun clean => ?_⟩
    · rw [test]
      exact linkSender_behind p dst (chain.congr fun a _ => links a)
    · have inOrder : last ∈ order := by
        have waits : last ∈ sendersTo kernel order dst := by simp [split]
        exact (mem_waiting.mp waits).1
      have linked : ∀ i ≠ last, ((parked kernel p dst buffer buffer_len).modify last fun pcb =>
          { pcb with senderNext := some p }).senderLink i = kernel.senderLink i := by
        intro i other
        rw [← links i, Kernel.senderLink, Kernel.modify_proctab, if_neg other]
        rfl
      have joined : ((parked kernel p dst buffer buffer_len).modify last fun pcb =>
          { pcb with senderNext := some p }).senderLink last = some p := by
        rw [Kernel.senderLink, Kernel.modify_proctab, if_pos rfl]
      have kept : ∀ i, (((parked kernel p dst buffer buffer_len).modify last fun pcb =>
          { pcb with senderNext := some p }).proctab i).senderQueue =
            (kernel.proctab i).senderQueue := fun i =>
        (Kernel.modify_same _ last (fun pcb => { pcb with senderNext := some p }) (·.senderQueue)
          rfl i).trans (queue i)
      obtain ⟨named, mail⟩ := settled.parks live
        (parks.modify (fun pcb => { pcb with senderNext := some p }) (fun _ => rfl)
          (fun _ => rfl) fun _ => rfl)
        (fun i _ => kept i) ((linked p (settled.other inOrder).symm).trans clean)
        (.behind front last split (kept dst) joined fun a _ other => linked a other)
      exact ⟨named, mail, queued.modify _ (fun _ => rfl) fun _ => rfl⟩

def handed (kernel : Kernel) (mem : Memory) (value : Word) (q p : Slot) : Kernel :=
  ready (ready (({ kernel with mem := mem }).modify q fun pcb => { pcb with ret := value }) q) p

theorem handed_mail (kernel : Kernel) (mem : Memory) (value : Word) (q p i : Slot) :
    ((handed kernel mem value q p).proctab i).mail = (kernel.proctab i).mail := by
  rw [handed, ready_mail, ready_mail]
  exact ({ kernel with mem := mem }).modify_same q (fun pcb => { pcb with ret := value })
    Pcb.mail rfl i

theorem handed_state (kernel : Kernel) (mem : Memory) (value : Word) (q p i : Slot) :
    ((handed kernel mem value q p).proctab i).state =
      if i = p then .ready else if i = q then .ready else (kernel.proctab i).state := by
  have answered := ({ kernel with mem := mem }).modify_same q
    (fun pcb => { pcb with ret := value }) (·.state) rfl i
  rw [handed, ready_state, ready_state, answered]

theorem handed_queued (mem : Memory) (value : Word) (queued : Queued kernel rq) (absent : p ∉ rq)
    (blocked : q ∉ rq) (notSelf : q ≠ p) :
    Queued (handed kernel mem value q p) (rq ++ [q] ++ [p]) := by
  have copied : Queued { kernel with mem := mem } rq :=
    queued.congr rfl rfl (fun _ => rfl) fun _ _ => rfl
  have answered : Queued (({ kernel with mem := mem }).modify q fun pcb =>
      { pcb with ret := value }) rq := copied.modify _ (fun _ => rfl) fun _ => rfl
  refine (answered.ready blocked).ready fun isIn => ?_
  rcases List.mem_append.mp isIn with old | new
  · exact absent old
  · exact notSelf (List.mem_singleton.mp new).symm

theorem send_delivers (delivers : Delivers kernel src dst) :
    ∃ mem value, send kernel src dst buffer buffer_len =
      some (value, handed kernel mem value dst src) := ⟨_, _, if_pos delivers⟩

theorem Settled.hands (settled : Settled kernel p rq order) (notSelf : dst ≠ p)
    (expects : Expects kernel p dst) (mem : Memory) (value : Word) :
    Served (handed kernel mem value dst p) (rq ++ [dst] ++ [p]) order := by
  have same : SameMail kernel (handed kernel mem value dst p) := by
    refine ⟨handed_mail _ _ _ dst p, fun i => ?_, fun i => ?_⟩
    all_goals
      rw [handed_state]
      by_cases isP : i = p
      · simp [isP, settled.running]
      · by_cases isDst : i = dst
        · simp [isDst, notSelf, expects.1]
        · simp [isP, isDst]
  exact ⟨same.named settled.named, same.transfer settled.mail,
    handed_queued _ _ settled.queued settled.absent
      (settled.queued.absent (by simp [expects.1])) notSelf⟩

end Calls

namespace Settled

theorem serves (settled : Settled kernel p rq order) {mem : Memory} {value : Word}
    (waits : q ∈ sendersTo kernel order p) (write : Pcb → Pcb) (at' : Slot)
    (state : ∀ pcb, (write pcb).state = pcb.state) (pid : ∀ pcb, (write pcb).pid = pcb.pid)
    (next : ∀ pcb, (write pcb).next = pcb.next)
    (waitingPid : ∀ pcb, (write pcb).waitingPid = pcb.waitingPid)
    (queues : ∀ i ≠ p, (((handed kernel mem value q p).modify at' write).proctab i).senderQueue =
      (kernel.proctab i).senderQueue)
    (unhung : Unhung kernel.senderLink ((handed kernel mem value q p).modify at' write).senderLink
      (kernel.proctab p).senderQueue
      (((handed kernel mem value q p).modify at' write).proctab p).senderQueue order
      (sendersTo kernel order p) q) :
    Served ((handed kernel mem value q p).modify at' write) (rq ++ [q] ++ [p])
      (order.filter (· ≠ q)) := by
  have inOrder := (mem_waiting.mp waits).1
  have blocked := (settled.mail.blocked q).mp inOrder
  have states : ∀ i, (((handed kernel mem value q p).modify at' write).proctab i).state =
      if i = p then .ready else if i = q then .ready else (kernel.proctab i).state := fun i =>
    (Kernel.modify_same _ at' write (·.state) (state _) i).trans (handed_state kernel mem value q p i)
  have pids : ∀ i, (((handed kernel mem value q p).modify at' write).proctab i).pid =
      (kernel.proctab i).pid := by
    intro i
    have mail := congrArg Pcb.pid (handed_mail kernel mem value q p i)
    exact (Kernel.modify_same _ at' write (·.pid) (pid _) i).trans mail
  have keys : ∀ i, (((handed kernel mem value q p).modify at' write).proctab i).waitingPid =
      (kernel.proctab i).waitingPid := by
    intro i
    have mail := congrArg Pcb.waitingPid (handed_mail kernel mem value q p i)
    exact (Kernel.modify_same _ at' write (·.waitingPid) (waitingPid _) i).trans mail
  have stopped : ∀ i, (((handed kernel mem value q p).modify at' write).proctab i).state =
      .stopped ↔ (kernel.proctab i).state = .stopped := by
    intro i
    rw [states]
    by_cases isP : i = p
    · simp [isP, settled.running]
    · by_cases isQ : i = q
      · simp [isQ, settled.other inOrder, blocked]
      · simp [isP, isQ]
  refine ⟨settled.named.of_same pids stopped, ?_, ?_⟩
  · refine Mail.of_threaded (settled.mail.unique.filter _) (fun i => ?_) pids stopped ?_
    · rw [states, List.mem_filter, settled.mail.blocked i]
      by_cases isP : i = p
      · simp [isP, settled.running]
      · by_cases isQ : i = q
        · simp [isQ]
        · simp [isP, isQ]
    · exact settled.mail.queues.remove settled.live settled.named_eq (fun a _ => keys a)
        (fun i _ other => queues i other) unhung
  · exact (handed_queued mem value settled.queued settled.absent
      (settled.queued.absent (by simp [blocked])) (settled.other inOrder)).modify write next
        fun _ => state _

theorem serves_first (settled : Settled kernel p rq order) {rest : List Slot}
    (split : sendersTo kernel order p = q :: rest) (mem : Memory) (value : Word) :
    Served ((handed kernel mem value q p).modify p fun pcb =>
      { pcb with senderQueue := ((handed kernel mem value q p).proctab q).senderNext })
      (rq ++ [q] ++ [p]) (order.filter (· ≠ q)) := by
  have links : ∀ i, ((handed kernel mem value q p).modify p fun pcb =>
      { pcb with senderQueue := ((handed kernel mem value q p).proctab q).senderNext }).senderLink
        i = kernel.senderLink i := by
    intro i
    have mail := congrArg Pcb.senderNext (handed_mail kernel mem value q p i)
    exact (Kernel.modify_same _ p (fun pcb =>
      { pcb with senderQueue := ((handed kernel mem value q p).proctab q).senderNext })
      (·.senderNext) rfl i).trans mail
  refine settled.serves (by simp [split]) _ p (fun _ => rfl) (fun _ => rfl) (fun _ => rfl)
    (fun _ => rfl) (fun i other => ?_) ?_
  · rw [Kernel.modify_proctab, if_neg other]
    have mail := congrArg Pcb.senderQueue (handed_mail kernel mem value q p i)
    exact mail
  · refine .first rest split ?_ fun a _ _ => links a
    rw [Kernel.modify_proctab, if_pos rfl]
    have mail := congrArg Pcb.senderNext (handed_mail kernel mem value q p q)
    exact mail

theorem serves_behind (settled : Settled kernel p rq order) {front back : List Slot}
    {before : Slot} (split : sendersTo kernel order p = front ++ before :: q :: back)
    (mem : Memory) (value : Word) :
    Served ((handed kernel mem value q p).modify before fun pcb =>
      { pcb with senderNext := ((handed kernel mem value q p).proctab q).senderNext })
      (rq ++ [q] ++ [p]) (order.filter (· ≠ q)) := by
  have mail := handed_mail kernel mem value q p
  refine settled.serves (by simp [split]) _ before (fun _ => rfl) (fun _ => rfl) (fun _ => rfl)
    (fun _ => rfl) (fun i _ => ?_) ?_
  · have queue := congrArg Pcb.senderQueue (mail i)
    exact (Kernel.modify_same _ before (fun pcb =>
      { pcb with senderNext := ((handed kernel mem value q p).proctab q).senderNext })
      (·.senderQueue) rfl i).trans queue
  · refine .behind front before back split ?_ ?_ fun a _ other _ => ?_
    · have queue := congrArg Pcb.senderQueue (mail p)
      exact (Kernel.modify_same _ before (fun pcb =>
        { pcb with senderNext := ((handed kernel mem value q p).proctab q).senderNext })
        (·.senderQueue) rfl p).trans queue
    · rw [Kernel.senderLink, Kernel.modify_proctab, if_pos rfl]
      have link := congrArg Pcb.senderNext (mail q)
      exact link
    · rw [Kernel.senderLink, Kernel.modify_proctab, if_neg other]
      have link := congrArg Pcb.senderNext (mail a)
      exact link

end Settled

section Receiving

variable {buffer buffer_len : Word}

/-- The list walk that ends `recv`. -/
def unlinkSender (kernel : Kernel) (value : Word) (p q : Slot) :
    Option Slot → Option (Word × Kernel)
  | none => none
  | some first =>
      if (kernel.proctab first).pid = (kernel.proctab q).pid then
        some (value, kernel.modify p fun pcb =>
          { pcb with senderQueue := (kernel.proctab q).senderNext })
      else
        match senderBefore kernel (kernel.proctab q).pid loopFuel first with
        | none => none
        | some temp => some (value, kernel.modify temp fun pcb =>
            { pcb with senderNext := (kernel.proctab q).senderNext })

theorem unlinkSender_behind {queue : Option Slot} {front back : List Slot} {before : Slot}
    (value : Word) (p : Slot) (chain : Chain kernel.senderLink queue (front ++ before :: q :: back))
    (others : ∀ node ∈ front ++ [before], (kernel.proctab node).pid ≠ (kernel.proctab q).pid) :
    unlinkSender kernel value p q queue = some (value, kernel.modify before fun pcb =>
      { pcb with senderNext := (kernel.proctab q).senderNext }) := by
  obtain ⟨first, isFirst, rfl⟩ : ∃ first ∈ front ++ [before], queue = some first := by
    cases front with
    | nil => exact ⟨before, by simp, chain.1⟩
    | cons first _ => exact ⟨first, by simp, chain.1⟩
  have enough : front.length < loopFuel := by
    have bound := length_lt_loopFuel chain.nodup
    simp only [List.length_append] at bound
    omega
  simp only [unlinkSender, if_neg (others first isFirst), senderBefore_of_chain chain others enough]

theorem recv_serves (settled : Settled kernel p rq order) (waits : q ∈ sendersTo kernel order p) :
    ∃ value kernel', recv kernel p q buffer buffer_len = some (value, kernel') ∧
      Served kernel' (rq ++ [q] ++ [p]) (order.filter (· ≠ q)) := by
  have inOrder := (mem_waiting.mp waits).1
  have blocked := (settled.mail.blocked q).mp inOrder
  have chain : Chain kernel.senderLink (kernel.proctab p).senderQueue (sendersTo kernel order p) :=
    settled.mail.queues p settled.live
  obtain ⟨mem, value, test⟩ : ∃ mem value, recv kernel p q buffer buffer_len =
      unlinkSender (handed kernel mem value q p) value p q
        ((handed kernel mem value q p).proctab p).senderQueue :=
    ⟨_, _, if_pos ⟨blocked, (mem_waiting.mp waits).2⟩⟩
  have mail := handed_mail kernel mem value q p
  have queue : ((handed kernel mem value q p).proctab p).senderQueue =
      (kernel.proctab p).senderQueue := by
    have queue := congrArg Pcb.senderQueue (mail p)
    exact queue
  have pid : ∀ i, ((handed kernel mem value q p).proctab i).pid = (kernel.proctab i).pid := by
    intro i
    have pid := congrArg Pcb.pid (mail i)
    exact pid
  have links : ∀ i, (handed kernel mem value q p).senderLink i = kernel.senderLink i := by
    intro i
    have link := congrArg Pcb.senderNext (mail i)
    exact link
  obtain ⟨front, back, split⟩ := List.append_of_mem waits
  rw [split] at chain
  rcases List.eq_nil_or_concat front with rfl | ⟨front, before, rfl⟩
  · have head : ((handed kernel mem value q p).proctab p).senderQueue = some q :=
      queue.trans chain.1
    refine ⟨value, _, ?_, settled.serves_first split mem value⟩
    rw [test, head]
    exact if_pos rfl
  · rw [List.concat_eq_append, List.append_assoc, List.singleton_append] at split chain
    have waitsAll : ∀ node ∈ front ++ [before], node ∈ sendersTo kernel order p := by
      intro node isIn
      rw [split]
      rcases List.mem_append.mp isIn with inFront | isBefore
      · simp [inFront]
      · simp [List.mem_singleton.mp isBefore]
    have apart : ∀ node ∈ front ++ [before], node ≠ q := by
      have unique := chain.nodup
      rw [List.nodup_append, List.nodup_cons] at unique
      rintro node isIn rfl
      rcases List.mem_append.mp isIn with inFront | isBefore
      · exact unique.2.2 node inFront node (by simp) rfl
      · exact unique.2.1.1 (by simp [List.mem_singleton.mp isBefore])
    have others : ∀ node ∈ front ++ [before],
        ((handed kernel mem value q p).proctab node).pid ≠
          ((handed kernel mem value q p).proctab q).pid := by
      intro node isIn same
      rw [pid, pid] at same
      have state := (settled.mail.blocked node).mp (mem_waiting.mp (waitsAll node isIn)).1
      exact apart node isIn (settled.named.distinct node q (by simp [state]) (by simp [blocked]) same)
    refine ⟨value, _, ?_, settled.serves_behind split mem value⟩
    rw [test, queue]
    exact unlinkSender_behind value p (chain.congr fun a _ => links a) others

theorem recvAny_serves (settled : Settled kernel p rq order) {rest : List Slot}
    (split : sendersTo kernel order p = q :: rest) (from_pid : Word) :
    ∃ value kernel', recvAny kernel p from_pid buffer buffer_len = some (value, kernel') ∧
      Served kernel' (rq ++ [q] ++ [p]) (order.filter (· ≠ q)) := by
  have chain : Chain kernel.senderLink (kernel.proctab p).senderQueue (sendersTo kernel order p) :=
    settled.mail.queues p settled.live
  rw [split] at chain
  refine ⟨minLen buffer_len (kernel.proctab q).buffer_len, _, ?_, settled.serves_first split
    (memCpy kernel.mem buffer (kernel.proctab q).buffer
      (minLen buffer_len (kernel.proctab q).buffer_len))
    (minLen buffer_len (kernel.proctab q).buffer_len)⟩
  simp only [recvAny, chain.1]
  rfl

end Receiving

end XerosKernel
