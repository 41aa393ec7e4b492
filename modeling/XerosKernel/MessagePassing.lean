import XerosKernel.Runs
import XerosKernel.SenderQueue

/-!
Runs of `send`, `recv` and `recvAny`. While no message meets an old registration and no
sender blocks with an old link, every message reaches a process that waits for it and
every sender queue holds the blocked senders in their order.
-/

namespace XerosKernel

open Execution IntrusiveList

/-! Events. -/

/-- A call of `msg.c`, or `SYS_YIELD`, with which a process lets the others run. -/
inductive MsgEvent
  | call (call : MsgCall)
  | yield
  deriving DecidableEq, Repr

/-- The dispatcher with the processes that are blocked in `send`, in the order in which they
blocked. -/
structure MsgRun where
  dispatcher : Dispatcher
  order : List Slot

namespace MsgRun

def kernel (s : MsgRun) : Kernel := s.dispatcher.kernel
def current (s : MsgRun) : Slot := s.dispatcher.current

end MsgRun

def blockOrder (order : List Slot) (kernel : Kernel) (p : Slot) : List Slot :=
  (order.filter fun q => (kernel.proctab q).state = .blockedSend) ++
    if (kernel.proctab p).state = .blockedSend then [p] else []

def msgServe (d : Dispatcher) : MsgEvent → Option Dispatcher
  | .call call => dispatchMsg d call
  | .yield => reschedule (ready d.kernel d.current)

def msgStep (s : MsgRun) (event : MsgEvent) : Option MsgRun :=
  (msgServe s.dispatcher event).map fun d => ⟨d, blockOrder s.order d.kernel s.current⟩

namespace MsgCall

def peer : MsgCall → Option Slot
  | send dstPcb _ _ => some dstPcb
  | recv fromPcb _ _ => some fromPcb
  | recvAny _ _ _ => none

def length : MsgCall → Word
  | send _ _ buffer_len | recv _ _ buffer_len | recvAny _ _ buffer_len => buffer_len

end MsgCall

/-- A call about another process that exists, with a length that is not negative. -/
def Proper (kernel : Kernel) (p : Slot) (call : MsgCall) : Prop :=
  (∀ q ∈ call.peer, q ≠ p ∧ (kernel.proctab q).state ≠ .stopped) ∧ 0 ≤ call.length.toInt

instance (kernel : Kernel) (p : Slot) (call : MsgCall) : Decidable (Proper kernel p call) :=
  @instDecidableAnd _ _ (Option.decidableForallMem _) inferInstance

/-- A message does not meet an old registration, and its sender does not block with the link
of an earlier block. -/
def Fits (kernel : Kernel) (p : Slot) : MsgCall → Prop
  | .send dstPcb _ _ => Registered kernel dstPcb ∧
      (¬ Expects kernel p dstPcb → (kernel.proctab p).senderNext = none)
  | .recv _ _ _ | .recvAny _ _ _ => True

instance (kernel : Kernel) (p : Slot) : (call : MsgCall) → Decidable (Fits kernel p call)
  | .send _ _ _ => inferInstanceAs (Decidable (_ ∧ _))
  | .recv _ _ _ | .recvAny _ _ _ => isTrue trivial

def ProperEvent (s : MsgRun) : MsgEvent → Prop
  | .call call => Proper s.kernel s.current call
  | .yield => True

instance (s : MsgRun) : (event : MsgEvent) → Decidable (ProperEvent s event)
  | .call _ => inferInstanceAs (Decidable (Proper _ _ _))
  | .yield => isTrue trivial

def Allowed (s : MsgRun) : MsgEvent → Prop
  | .call call => Proper s.kernel s.current call ∧ Fits s.kernel s.current call
  | .yield => True

instance (s : MsgRun) : (event : MsgEvent) → Decidable (Allowed s event)
  | .call _ => inferInstanceAs (Decidable (_ ∧ _))
  | .yield => isTrue trivial

/-- No process is blocked, and the queues are in order. -/
structure Idle (s : MsgRun) : Prop where
  named : Named s.kernel
  free : ∀ i, (s.kernel.proctab i).state ≠ .blockedSend ∧ (s.kernel.proctab i).state ≠ .blockedRecv
  empty : ∀ i, (s.kernel.proctab i).senderQueue = none
  queued : ∃ rq, Queued s.kernel rq ∧ s.current ∉ rq
  running : (s.kernel.proctab s.current).state = .ready
  order : s.order = []

variable {kernel kernel' : Kernel} {p q dst : Slot} {order rq : List Slot} {s s' : MsgRun}

theorem Idle.settled (idle : Idle s) : ∃ rq, Settled s.kernel s.current rq s.order := by
  obtain ⟨rq, queued, absent⟩ := idle.queued
  refine ⟨rq, idle.named, ?_, queued, idle.running, absent⟩
  rw [idle.order]
  refine ⟨List.nodup_nil, fun q => ?_, fun i _ => idle.empty i⟩
  simp [(idle.free q).1]

/-! One call. -/

theorem blockOrder_eq {keep : Slot → Bool} {blocks : Bool} (absent : p ∉ order)
    (mail : Mail kernel (order.filter keep ++ if blocks = true then [p] else [])) :
    blockOrder order kernel p = order.filter keep ++ if blocks = true then [p] else [] := by
  have blocked := mail.blocked
  have kept : order.filter (fun q => (kernel.proctab q).state = .blockedSend) =
      order.filter keep := by
    refine List.filter_congr fun a isIn => ?_
    have other : a ≠ p := by
      rintro rfl
      exact absent isIn
    rw [Bool.eq_iff_iff, decide_eq_true_iff, ← blocked a]
    cases blocks <;> simp [isIn, other]
  have caller : (kernel.proctab p).state = .blockedSend ↔ blocks = true := by
    rw [← blocked p]
    cases blocks <;> simp [absent]
  rw [blockOrder, kept]
  simp only [caller]

theorem call_served {call : MsgCall} (settled : Settled kernel p rq order)
    (proper : Proper kernel p call) :
    ∃ value kernel', call.serve kernel p = some (value, kernel') ∧ (Fits kernel p call →
      ∃ rq' keep blocks, Served kernel' rq'
        (order.filter keep ++ if blocks = true then [p] else [])) := by
  have whole : order.filter (fun _ => true) = order := List.filter_eq_self.mpr fun _ _ => rfl
  have stays : ∀ {kernel' rq'}, Served kernel' rq' order → ∃ rq' keep blocks, Served kernel' rq'
      (order.filter keep ++ if blocks = true then [p] else []) := by
    intro kernel' rq' served
    refine ⟨rq', fun _ => true, false, ?_⟩
    simpa [whole] using served
  have leaves : ∀ {kernel' rq' q}, Served kernel' rq' (order.filter (· ≠ q)) →
      ∃ rq' keep blocks, Served kernel' rq'
        (order.filter keep ++ if blocks = true then [p] else []) := by
    intro kernel' rq' q served
    refine ⟨rq', fun a => a ≠ q, false, ?_⟩
    simpa using served
  cases call with
  | send dst buffer buffer_len =>
      obtain ⟨notSelf, live⟩ := proper.1 dst rfl
      by_cases delivers : Delivers kernel p dst
      · obtain ⟨mem, value, sent⟩ := send_delivers delivers
        exact ⟨value, _, sent, fun fits =>
          stays (settled.hands notSelf ((delivers_iff fits.1).mp delivers) mem value)⟩
      · obtain ⟨kernel', sent, _, served⟩ := send_parks settled live notSelf delivers
        refine ⟨0, kernel', sent, fun fits => ⟨rq, fun _ => true, true, ?_⟩⟩
        have refused : ¬ Expects kernel p dst := fun expects =>
          delivers ((delivers_iff fits.1).mpr expects)
        simpa [whole] using served (fits.2 refused)
  | recv q buffer buffer_len =>
      by_cases waits : q ∈ sendersTo kernel order p
      · obtain ⟨value, kernel', received, served⟩ := recv_serves settled waits
        exact ⟨value, kernel', received, fun _ => leaves served⟩
      · have refused : ¬ ((kernel.proctab q).state = .blockedSend ∧
            (kernel.proctab q).waitingPid = (kernel.proctab p).pid) := by
          rintro ⟨state, pid⟩
          exact waits (mem_waiting.mpr ⟨(settled.mail.blocked q).mpr state, pid⟩)
        exact ⟨0, _, if_neg refused, fun _ => stays (settled.registers _)⟩
  | recvAny from_pid buffer buffer_len =>
      cases senders : sendersTo kernel order p with
      | nil =>
          have empty : (kernel.proctab p).senderQueue = none := by
            have chain := settled.mail.queues p settled.live
            exact (senders ▸ chain : Chain kernel.senderLink (kernel.proctab p).senderQueue [])
          refine ⟨0, awaiting kernel p (-1) buffer buffer_len, ?_,
            fun _ => stays (settled.registers _)⟩
          simp only [MsgCall.serve, recvAny, empty]
          rfl
      | cons oldest rest =>
          obtain ⟨value, kernel', received, served⟩ := recvAny_serves settled senders from_pid
          exact ⟨value, kernel', received, fun _ => leaves served⟩

/-! Runs. -/

theorem Served.reschedule {d : Dispatcher} (served : Served kernel rq order)
    (popped : reschedule kernel = some d) : ∃ rq', Settled d.kernel d.current rq' order := by
  cases rq with
  | nil =>
      rw [XerosKernel.reschedule, served.queued.queue.next_nil] at popped
      cases popped
  | cons first rest =>
      obtain ⟨taken, queued, absent, running⟩ := served.queued.pop
      rw [XerosKernel.reschedule, taken] at popped
      cases popped
      have same : SameMail kernel (XerosKernel.popped kernel first) :=
        ⟨popped_mail kernel first, fun i => by rw [popped_state], fun i => by rw [popped_state]⟩
      exact ⟨rest, same.named served.named, same.transfer served.mail, queued, running, absent⟩

theorem Served.modify (served : Served kernel rq order) (value : Word) :
    Served (kernel.modify p fun pcb => { pcb with ret := value }) rq order := by
  have same : SameMail kernel (kernel.modify p fun pcb => { pcb with ret := value }) :=
    SameMail.modify kernel _ (fun _ => rfl) Iff.rfl Iff.rfl
  exact ⟨same.named served.named, same.transfer served.mail,
    served.queued.modify _ (fun _ => rfl) fun _ => rfl⟩

theorem msgStep_settled {event : MsgEvent} (settled : Settled s.kernel s.current rq s.order)
    (allowed : Allowed s event) (stepped : msgStep s event = some s') :
    ∃ rq', Settled s'.kernel s'.current rq' s'.order := by
  obtain ⟨d, served, rfl⟩ := Option.map_eq_some_iff.mp stepped
  cases event with
  | call call =>
      obtain ⟨value, kernel', answer, calm⟩ := call_served settled allowed.1
      obtain ⟨rq', keep, blocks, between⟩ := calm allowed.2
      obtain ⟨⟨value', kernel''⟩, answer', rest⟩ := Option.bind_eq_some_iff.mp served
      have same : (value', kernel'') = (value, kernel') :=
        Option.some.inj (answer'.symm.trans answer)
      cases same
      obtain ⟨rq'', after⟩ := (between.modify value).reschedule rest
      refine ⟨rq'', ?_⟩
      rw [← blockOrder_eq settled.notBlocked after.mail] at after
      exact after
  | yield =>
      have same : SameMail s.kernel (ready s.kernel s.current) :=
        SameMail.ready s.kernel settled.live (by simp [settled.running])
      have between : Served (ready s.kernel s.current) (rq ++ [s.current]) s.order :=
        ⟨same.named settled.named, same.transfer settled.mail,
          settled.queued.ready settled.absent⟩
      obtain ⟨rq'', after⟩ := between.reschedule served
      refine ⟨rq'', ?_⟩
      have kept : s.order = s.order.filter (fun _ => true) ++
          if false = true then [s.current] else [] := by
        rw [List.filter_eq_self.mpr fun _ _ => rfl]
        simp
      rw [kept] at after
      rw [← blockOrder_eq settled.notBlocked after.mail] at after
      exact after

theorem run_settled {start : MsgRun} {events : List MsgEvent} (idle : Idle start)
    (along : Along msgStep Allowed start events) (reached : run msgStep start events = some s) :
    ∃ rq, Settled s.kernel s.current rq s.order := by
  have kept : ∀ (s : MsgRun) event (s' : MsgRun),
      (∃ rq, Settled s.kernel s.current rq s.order) → Allowed s event →
        msgStep s event = some s' → ∃ rq, Settled s'.kernel s'.current rq s'.order :=
    fun _ _ _ ⟨_, settled⟩ allowed stepped => msgStep_settled settled allowed stepped
  exact run_invariant kept idle.settled along reached

/-- In the states of allowed runs no process is on the ready queue twice or while it runs, and
a message reaches only a process that waits for it, or leaves its destination alone, exactly
if the destination has no old registration. -/
theorem message_delivery {start s : MsgRun} {events : List MsgEvent} (idle : Idle start)
    (along : Along msgStep Allowed start events) (reached : run msgStep start events = some s) :
    (∃ rq, Queued s.kernel rq ∧ s.current ∉ rq) ∧
      ∀ dst buffer buffer_len, Proper s.kernel s.current (.send dst buffer buffer_len) →
        ∃ value kernel', send s.kernel s.current dst buffer buffer_len = some (value, kernel') ∧
          (Expects s.kernel s.current dst ∨ Untouched s.kernel kernel' dst ↔
            Registered s.kernel dst) := by
  obtain ⟨rq, settled⟩ := run_settled idle along reached
  refine ⟨⟨rq, settled.queued, settled.absent⟩, fun dst buffer buffer_len proper => ?_⟩
  obtain ⟨notSelf, live⟩ := proper.1 dst rfl
  by_cases delivers : Delivers s.kernel s.current dst
  · obtain ⟨mem, value, sent⟩ := send_delivers delivers
    refine ⟨value, _, sent, ?_, fun registered => ?_⟩
    · rintro (expects | untouched)
      · exact fun _ => expects.1
      · -- the sender is the last of the ready queue after the delivery, and was not on it before
        have last : s.kernel.tail = some s.current := untouched.tail.symm
        rw [settled.queued.queue.last] at last
        exact absurd (List.mem_of_getLast? last) settled.absent
    · exact Or.inl ((delivers_iff registered).mp delivers)
  · obtain ⟨kernel', sent, untouched, _⟩ := send_parks settled live notSelf delivers
    exact ⟨0, kernel', sent, fun _ any => absurd (Or.inr any) delivers, fun _ => Or.inr untouched⟩

/-- In the states of allowed runs every sender queue holds the processes that are blocked in
a send to its owner, in the order in which they blocked; every call ends, and `recvAny`
serves the oldest sender and no other. -/
theorem sender_queues {start s : MsgRun} {events : List MsgEvent} (idle : Idle start)
    (along : Along msgStep Allowed start events) (reached : run msgStep start events = some s) :
    s.order.Nodup ∧ (∀ q, q ∈ s.order ↔ (s.kernel.proctab q).state = .blockedSend) ∧
      (∀ dst, (s.kernel.proctab dst).state ≠ .stopped →
        Chain s.kernel.senderLink (s.kernel.proctab dst).senderQueue
          (sendersTo s.kernel s.order dst)) ∧
      (∀ call, Proper s.kernel s.current call → (call.serve s.kernel s.current).isSome) ∧
      ∀ from_pid buffer buffer_len oldest rest,
        sendersTo s.kernel s.order s.current = oldest :: rest →
          ∃ value kernel',
            recvAny s.kernel s.current from_pid buffer buffer_len = some (value, kernel') ∧
              (kernel'.proctab oldest).state = .ready ∧
              ∀ q ∈ rest, (kernel'.proctab q).state = .blockedSend := by
  obtain ⟨rq, settled⟩ := run_settled idle along reached
  refine ⟨settled.mail.unique, settled.mail.blocked, settled.mail.queues, ?_, ?_⟩
  · intro call proper
    obtain ⟨value, kernel', answer, _⟩ := call_served settled proper
    simp [answer]
  · intro from_pid buffer buffer_len oldest rest senders
    obtain ⟨value, kernel', received, served⟩ := recvAny_serves settled senders from_pid
    refine ⟨value, kernel', received, served.queued.state oldest (by simp), fun q isIn => ?_⟩
    have waits : q ∈ sendersTo s.kernel s.order s.current := by simp [senders, isIn]
    have chain : Chain s.kernel.senderLink (s.kernel.proctab s.current).senderQueue
        (sendersTo s.kernel s.order s.current) := settled.mail.queues s.current settled.live
    rw [senders] at chain
    have other : q ≠ oldest := by
      rintro rfl
      exact (List.nodup_cons.mp chain.nodup).1 isIn
    rw [← served.mail.blocked q, List.mem_filter]
    exact ⟨(mem_waiting.mp waits).1, by simpa using other⟩

/-! Samples. -/

def IdleCheck (d : Dispatcher) (rq : List Slot) : Prop :=
  (∀ i, (d.kernel.proctab i).state ≠ .stopped → ∀ j, (d.kernel.proctab j).state ≠ .stopped →
    (d.kernel.proctab i).pid = (d.kernel.proctab j).pid → i = j) ∧
  (∀ i, ((d.kernel.proctab i).state ≠ .blockedSend ∧ (d.kernel.proctab i).state ≠ .blockedRecv) ∧
    (d.kernel.proctab i).senderQueue = none) ∧
  (Chain d.kernel.link d.kernel.head rq ∧ d.kernel.tail = rq.getLast? ∧
    ∀ q ∈ rq, (d.kernel.proctab q).state = .ready) ∧
  d.current ∉ rq ∧ (d.kernel.proctab d.current).state = .ready

instance (d : Dispatcher) (rq : List Slot) : Decidable (IdleCheck d rq) :=
  inferInstanceAs (Decidable (_ ∧ _))

theorem IdleCheck.idle {d : Dispatcher} (check : IdleCheck d rq) : Idle ⟨d, []⟩ := by
  obtain ⟨named, free, queued, absent, running⟩ := check
  exact ⟨⟨fun i j liveI liveJ => named i liveI j liveJ⟩,
    fun i => (free i).1, fun i => (free i).2,
    ⟨rq, ⟨⟨queued.1, queued.2.1⟩, queued.2.2⟩, absent⟩, running, rfl⟩

theorem msgRun_of_check (guard : MsgRun → MsgEvent → Prop) (events : List MsgEvent)
    (test : MsgRun → Prop)
    (check : ∃ start ∈ boot sampleEnv, ∃ d ∈ run (dispatch sampleEnv) start creatorRun,
      IdleCheck d [2, 1] ∧ Along msgStep guard ⟨d, []⟩ events ∧
      ∃ s ∈ run msgStep ⟨d, []⟩ events, test s) :
    ∃ start s, Idle start ∧ Along msgStep guard start events ∧
      run msgStep start events = some s ∧ test s := by
  obtain ⟨start, _, d, _, idle, along, s, reached, passed⟩ := check
  exact ⟨⟨d, []⟩, s, idle.idle, along, reached, passed⟩

def messageRun : List MsgEvent :=
  [.call (.recvAny 0 0x90000 4), .call (.send 3 0x80000 4)]

theorem message_delivery_once :
    ∃ s : MsgRun, (s.kernel.proctab 3).ret = 4 ∧ (∃ rq, Queued s.kernel rq ∧ s.current ∉ rq) ∧
      ∀ dst buffer buffer_len, Proper s.kernel s.current (.send dst buffer buffer_len) →
        ∃ value kernel', send s.kernel s.current dst buffer buffer_len = some (value, kernel') ∧
          (Expects s.kernel s.current dst ∨ Untouched s.kernel kernel' dst ↔
            Registered s.kernel dst) := by
  obtain ⟨start, s, idle, along, reached, ret⟩ := msgRun_of_check Allowed messageRun
    (fun s => (s.kernel.proctab 3).ret = 4) (by decide +kernel)
  exact ⟨s, ret, message_delivery idle along reached⟩

/-- The third process is ready to run after its message; the message of the first process
changes what its call returned. -/
theorem message_delivery_broken :
    ∃ (start s : MsgRun) (value : Word) (kernel' : Kernel), Idle start ∧
      Along msgStep ProperEvent start messageRun ∧
      run msgStep start messageRun = some s ∧
      Proper s.kernel s.current (.send 3 0x80000 2) ∧
      send s.kernel s.current 3 0x80000 2 = some (value, kernel') ∧
      (s.kernel.proctab 3).state = .ready ∧ (s.kernel.proctab 3).ret = 4 ∧
      (kernel'.proctab 3).ret = 2 := by
  obtain ⟨start, s, idle, along, reached, outcome⟩ := msgRun_of_check ProperEvent messageRun
    (fun s => Proper s.kernel s.current (.send 3 0x80000 2) ∧
      (s.kernel.proctab 3).state = .ready ∧ (s.kernel.proctab 3).ret = 4 ∧
      ∃ answer ∈ send s.kernel s.current 3 0x80000 2, (answer.2.proctab 3).ret = 2)
    (by decide +kernel)
  obtain ⟨proper, state, ret, ⟨value, kernel'⟩, sent, ret'⟩ := outcome
  exact ⟨start, s, value, kernel', idle, along, reached, proper, sent, state, ret, ret'⟩

def senderRun : List MsgEvent :=
  [.yield, .call (.send 3 0x80000 4), .call (.send 3 0x80000 4)]

theorem sender_queues_two :
    ∃ s : MsgRun, s.order = [2, 1] ∧ s.order.Nodup ∧
      (∀ q, q ∈ s.order ↔ (s.kernel.proctab q).state = .blockedSend) ∧
      (∀ dst, (s.kernel.proctab dst).state ≠ .stopped →
        Chain s.kernel.senderLink (s.kernel.proctab dst).senderQueue
          (sendersTo s.kernel s.order dst)) ∧
      (∀ call, Proper s.kernel s.current call → (call.serve s.kernel s.current).isSome) ∧
      ∀ from_pid buffer buffer_len oldest rest,
        sendersTo s.kernel s.order s.current = oldest :: rest →
          ∃ value kernel',
            recvAny s.kernel s.current from_pid buffer buffer_len = some (value, kernel') ∧
              (kernel'.proctab oldest).state = .ready ∧
              ∀ q ∈ rest, (kernel'.proctab q).state = .blockedSend := by
  obtain ⟨start, s, idle, along, reached, order⟩ := msgRun_of_check Allowed senderRun
    (fun s => s.order = [2, 1]) (by decide +kernel)
  exact ⟨s, order, sender_queues idle along reached⟩

/-- The third process serves the second one, which then blocks again with the link of its
first block: the queue closes to a cycle. -/
theorem sender_queues_broken :
    ∃ start s : MsgRun, Idle start ∧
      Along msgStep ProperEvent start
        (senderRun ++ [.call (.recvAny 0 0x90000 4), .call (.send 3 0x80000 4)]) ∧
      run msgStep start
        (senderRun ++ [.call (.recvAny 0 0x90000 4), .call (.send 3 0x80000 4)]) = some s ∧
      (s.kernel.proctab 3).state ≠ .stopped ∧
      ∀ nodes, ¬ Chain s.kernel.senderLink (s.kernel.proctab 3).senderQueue nodes := by
  obtain ⟨start, s, idle, along, reached, cycle⟩ := msgRun_of_check ProperEvent
    (senderRun ++ [.call (.recvAny 0 0x90000 4), .call (.send 3 0x80000 4)])
    (fun s => (s.kernel.proctab 3).state ≠ .stopped ∧
      (s.kernel.proctab 3).senderQueue = some 1 ∧ s.kernel.senderLink 1 = some 2 ∧
      s.kernel.senderLink 2 = some 1) (by decide +kernel)
  obtain ⟨live, head, there, back⟩ := cycle
  refine ⟨start, s, idle, along, reached, live, fun nodes => ?_⟩
  rw [head]
  exact Seg.not_of_cycle there back

end XerosKernel
