import XerosKernel.ReceiveAny

/-!
A rendezvous in both orders. The sender parks behind those who wait already and is unlinked again,
or the receiver registers and the sender delivers; either way the same message arrives.
-/

namespace XerosKernel

open Execution IntrusiveList

def answered (kernel : Kernel) (p : Slot) (value : Word) : Kernel :=
  kernel.modify p fun pcb => { pcb with ret := value }

/-- A message of `s` and the buffer `r` has for it. -/
structure Exchange where
  s : Slot
  r : Slot
  sendBuffer : Word
  sendLen : Word
  recvBuffer : Word
  recvLen : Word

namespace Exchange

def sendFirst (kernel : Kernel) (x : Exchange) : Option Kernel :=
  (send kernel x.s x.r x.sendBuffer x.sendLen).bind fun blocked =>
    (recv blocked.2 x.r x.s x.recvBuffer x.recvLen).map fun result =>
      answered result.2 x.r result.1

def recvFirst (kernel : Kernel) (x : Exchange) : Option Kernel :=
  (recv kernel x.r x.s x.recvBuffer x.recvLen).bind fun blocked =>
    (send blocked.2 x.s x.r x.sendBuffer x.sendLen).map fun result =>
      answered result.2 x.s result.1

def count (x : Exchange) : Word := minLen x.sendLen x.recvLen

def Apart (x : Exchange) : Prop :=
  ∀ i j, i < x.sendLen → j < x.recvLen → x.sendBuffer + i ≠ x.recvBuffer + j

/-- Both processes run: they are neither blocked in a call nor on the ready queue `rq`. The
receiver has no registration left, and the sender no link. -/
structure Fresh (kernel : Kernel) (x : Exchange) (rq senders : List Slot) : Prop where
  named : Named kernel
  different : x.s ≠ x.r
  live : (kernel.proctab x.s).state ≠ .stopped ∧ (kernel.proctab x.r).state ≠ .stopped
  sending : (kernel.proctab x.s).state ≠ .blockedSend
  receiving : (kernel.proctab x.r).state ≠ .blockedRecv ∧ (kernel.proctab x.r).waitingPid ≠ -1
  unlinked : (kernel.proctab x.s).senderNext = none
  queue : ReadyQueue kernel rq
  absent : x.s ∉ rq ∧ x.r ∉ rq
  senders : SendersWait kernel x.r senders

/-- The message has arrived: its bytes are in the buffer and nowhere else, both processes got the
number of bytes and are ready, behind `rq`, and the sender queues are what they were. -/
structure Met (kernel kernel' : Kernel) (x : Exchange) (rq : List Slot) : Prop where
  bytes : ∀ addr, kernel'.mem addr = if addr - x.recvBuffer < x.count then
    kernel.mem (x.sendBuffer + (addr - x.recvBuffer)) else kernel.mem addr
  counts : (kernel'.proctab x.s).ret = x.count ∧ (kernel'.proctab x.r).ret = x.count
  ready : (kernel'.proctab x.s).state = .ready ∧ (kernel'.proctab x.r).state = .ready
  queue : ReadyQueue kernel' rq
  senders : ∀ i, (kernel'.proctab i).senderQueue = (kernel.proctab i).senderQueue ∧
    kernel'.senderLink i = kernel.senderLink i

end Exchange

variable {kernel k : Kernel} {q p : Slot} {rq senders : List Slot} {x : Exchange}

/-! Lengths. -/

theorem minLen_toInt (first second : Word) :
    (minLen first second).toInt = min first.toInt second.toInt := by
  unfold minLen
  rw [BitVec.slt_eq_decide]
  by_cases less : first.toInt < second.toInt
  · simp [less, Int.le_of_lt less]
  · simp [less, Int.not_lt.mp less]

theorem minLen_comm (first second : Word) : minLen first second = minLen second first := by
  apply BitVec.eq_of_toInt_eq
  rw [minLen_toInt, minLen_toInt, min_comm]

theorem lt_of_lt_minLen {first second i : Word} (left : 0 ≤ first.toInt) (right : 0 ≤ second.toInt)
    (inside : i < minLen first second) : i < first ∧ i < second := by
  have firstNat := toInt_toNat left
  have secondNat := toInt_toNat right
  unfold minLen at inside
  rw [BitVec.slt_eq_decide] at inside
  by_cases less : first.toInt < second.toInt
  · simp only [less, decide_true, if_true] at inside
    exact ⟨inside, by bv_omega⟩
  · simp only [less, decide_false, Bool.false_eq_true, if_false] at inside
    exact ⟨by bv_omega, inside⟩

theorem Exchange.Apart.copy (apart : x.Apart) (left : 0 ≤ x.sendLen.toInt)
    (right : 0 ≤ x.recvLen.toInt) : x.count ≤ x.recvBuffer - x.sendBuffer := by
  by_contra overlap
  have inside : x.recvBuffer - x.sendBuffer < x.count := by bv_omega
  have some' : (0 : Word) < x.count := by bv_omega
  obtain ⟨inMessage, _⟩ := lt_of_lt_minLen left right inside
  obtain ⟨_, inBuffer⟩ := lt_of_lt_minLen left right some'
  exact apart _ 0 inMessage inBuffer (by bv_omega)

/-! What both orders end with. -/

structure Handover (k : Kernel) (mem : Memory) (value : Word) (q p : Slot) (rq : List Slot) :
    Prop where
  mem : k.mem = mem
  ret : (k.proctab q).ret = value
  ready : (k.proctab q).state = .ready ∧ (k.proctab p).state = .ready
  queue : ReadyQueue k rq

theorem handed_handover (mem : Memory) (value : Word) (queue : ReadyQueue kernel rq)
    (absentQ : q ∉ rq) (absentP : p ∉ rq) (different : q ≠ p) :
    Handover (handed kernel mem value q p) mem value q p (rq ++ [q] ++ [p]) := by
  have copied : ReadyQueue (({ kernel with mem := mem }).modify q fun pcb =>
      { pcb with ret := value }) rq := by
    refine queue.congr rfl rfl fun i _ => ?_
    exact ({ kernel with mem := mem }).modify_same q (fun pcb => { pcb with ret := value })
      (·.next) rfl i
  constructor
  · simp only [handed, ready_mem, Kernel.modify_mem]
  · simp only [handed, ready_proctab, Kernel.modify_proctab, if_true]
  · simp only [handed_state, if_true, ite_self, and_self]
  · apply (copied.append absentQ).append
    simp [absentP, different.symm]

namespace Handover

variable {mem : Memory} {value : Word} {at' : Slot} {write : Pcb → Pcb}

theorem modify (handover : Handover k mem value q p rq) (at' : Slot)
    (ret : ∀ pcb, (write pcb).ret = pcb.ret) (state : ∀ pcb, (write pcb).state = pcb.state)
    (next : ∀ pcb, (write pcb).next = pcb.next) :
    Handover (k.modify at' write) mem value q p rq := by
  constructor
  · exact handover.mem
  · rw [k.modify_same at' write (·.ret) (ret _)]
    exact handover.ret
  · rw [k.modify_same at' write (·.state) (state _), k.modify_same at' write (·.state) (state _)]
    exact handover.ready
  · refine handover.queue.congr rfl rfl fun i _ => ?_
    exact k.modify_same at' write (·.next) (next _) i

theorem answers (handover : Handover k mem value q p rq) (different : q ≠ p) :
    Handover (answered k p value) mem value q p rq ∧
      ((answered k p value).proctab p).ret = value := by
  have ret : ((answered k p value).proctab q).ret = value := by
    rw [answered, Kernel.modify_proctab, if_neg different]
    exact handover.ret
  have state : ∀ i, ((answered k p value).proctab i).state = (k.proctab i).state :=
    k.modify_same p (fun pcb => { pcb with ret := value }) (·.state) rfl
  refine ⟨⟨handover.mem, ret, ?_, ?_⟩, ?_⟩
  · rw [state, state]
    exact handover.ready
  · refine handover.queue.congr rfl rfl fun i _ => ?_
    exact k.modify_same p (fun pcb => { pcb with ret := value }) (·.next) rfl i
  · rw [answered, Kernel.modify_proctab, if_pos rfl]

end Handover

theorem handed_senderNext (k : Kernel) (mem : Memory) (value : Word) (q p i : Slot) :
    ((handed k mem value q p).proctab i).senderNext = (k.proctab i).senderNext := by
  have mail := congrArg Pcb.senderNext (handed_mail k mem value q p i)
  exact mail

theorem answered_senders (k : Kernel) (p : Slot) (value : Word) (i : Slot) :
    ((answered k p value).proctab i).senderQueue = (k.proctab i).senderQueue ∧
      (answered k p value).senderLink i = k.senderLink i :=
  ⟨k.modify_same p (fun pcb => { pcb with ret := value }) (·.senderQueue) rfl i,
    k.modify_same p (fun pcb => { pcb with ret := value }) (·.senderNext) rfl i⟩

namespace Exchange

/-! The receiver comes first. -/

theorem recvFirst_eq (fresh : Fresh kernel x rq senders) :
    recvFirst kernel x = some (answered (handed
      (awaiting kernel x.r (kernel.proctab x.s).pid x.recvBuffer x.recvLen)
      (memCpy kernel.mem x.recvBuffer x.sendBuffer x.count) x.count x.r x.s) x.s x.count) := by
  have blocks : recv kernel x.r x.s x.recvBuffer x.recvLen =
      some (0, awaiting kernel x.r (kernel.proctab x.s).pid x.recvBuffer x.recvLen) := by
    apply if_neg
    rintro ⟨blocked, _⟩
    exact fresh.sending blocked
  have receiver : (awaiting kernel x.r (kernel.proctab x.s).pid x.recvBuffer x.recvLen).proctab
      x.r = { kernel.proctab x.r with
        state := .blockedRecv, waitingPid := (kernel.proctab x.s).pid, buffer_len := x.recvLen,
        buffer := x.recvBuffer } := by
    rw [awaiting, Kernel.modify_proctab, if_pos rfl]
  have sender : (awaiting kernel x.r (kernel.proctab x.s).pid x.recvBuffer x.recvLen).proctab
      x.s = kernel.proctab x.s := by
    rw [awaiting, Kernel.modify_proctab, if_neg fresh.different]
  have delivers : send (awaiting kernel x.r (kernel.proctab x.s).pid x.recvBuffer x.recvLen)
      x.s x.r x.sendBuffer x.sendLen = some (x.count, handed
        (awaiting kernel x.r (kernel.proctab x.s).pid x.recvBuffer x.recvLen)
        (memCpy kernel.mem x.recvBuffer x.sendBuffer x.count) x.count x.r x.s) := by
    simp only [send, receiver, sender]
    rw [if_pos (Or.inl ⟨trivial, trivial⟩)]
    rfl
  rw [recvFirst, blocks, Option.bind_some, delivers, Option.map_some]

/-! The sender comes first. -/

theorem Fresh.notSender (fresh : Fresh kernel x rq senders) : x.s ∉ senders := by
  intro waits
  exact fresh.sending (fresh.senders.blocked x.s waits).1

theorem send_parked (fresh : Fresh kernel x rq senders) :
    send kernel x.s x.r x.sendBuffer x.sendLen =
      linkSender (parked kernel x.s x.r x.sendBuffer x.sendLen) x.s x.r
        (kernel.proctab x.r).senderQueue := by
  have refused : ¬ Delivers kernel x.s x.r := by
    rintro (⟨blocked, _⟩ | any)
    · exact fresh.receiving.1 blocked
    · exact fresh.receiving.2 any
  have queue : ((parked kernel x.s x.r x.sendBuffer x.sendLen).proctab x.r).senderQueue =
      (kernel.proctab x.r).senderQueue := kernel.modify_same x.s _ (·.senderQueue) rfl x.r
  rw [← queue]
  exact if_neg refused

structure Parked (kernel k : Kernel) (x : Exchange) : Prop where
  mem : k.mem = kernel.mem
  state : (k.proctab x.s).state = .blockedSend
  waits : (k.proctab x.s).waitingPid = (k.proctab x.r).pid
  message : (k.proctab x.s).buffer = x.sendBuffer ∧ (k.proctab x.s).buffer_len = x.sendLen
  queue : ∀ rq, ReadyQueue kernel rq → ReadyQueue k rq
  pid : ∀ i, (k.proctab i).pid = (kernel.proctab i).pid

theorem recv_parked (parked : Parked kernel k x) :
    recv k x.r x.s x.recvBuffer x.recvLen =
      unlinkSender (handed k (memCpy kernel.mem x.recvBuffer x.sendBuffer x.count) x.count x.s x.r)
        x.count x.r x.s (k.proctab x.r).senderQueue := by
  have number : minLen x.recvLen x.sendLen = x.count := minLen_comm _ _
  rw [← handed_senderQueue (memCpy kernel.mem x.recvBuffer x.sendBuffer x.count) x.count x.s x.r,
    ← parked.mem, ← parked.message.1, ← number, ← parked.message.2]
  exact if_pos ⟨parked.state, parked.waits⟩

def Relinks (write : Pcb → Pcb) : Prop :=
  ∀ pcb, { write pcb with senderQueue := pcb.senderQueue, senderNext := pcb.senderNext } = pcb

theorem parked_relinked (kernel : Kernel) (x : Exchange) (at' : Slot) {write : Pcb → Pcb}
    (relinks : Relinks write) :
    Parked kernel ((parked kernel x.s x.r x.sendBuffer x.sendLen).modify at' write) x := by
  have same : ∀ i, { ((parked kernel x.s x.r x.sendBuffer x.sendLen).modify at' write).proctab i
      with
        senderQueue := ((parked kernel x.s x.r x.sendBuffer x.sendLen).proctab i).senderQueue
        senderNext := ((parked kernel x.s x.r x.sendBuffer x.sendLen).proctab i).senderNext } =
      (parked kernel x.s x.r x.sendBuffer x.sendLen).proctab i := by
    intro i
    rw [Kernel.modify_proctab]
    split
    · exact relinks _
    · rfl
  have sender : (parked kernel x.s x.r x.sendBuffer x.sendLen).proctab x.s =
      { kernel.proctab x.s with
        state := .blockedSend, waitingPid := (kernel.proctab x.r).pid, buffer_len := x.sendLen,
        buffer := x.sendBuffer } := by
    rw [parked, Kernel.modify_proctab, if_pos rfl]
  have pid : ∀ i, ((parked kernel x.s x.r x.sendBuffer x.sendLen).proctab i).pid =
      (kernel.proctab i).pid := kernel.modify_same x.s _ (·.pid) rfl
  have here := (same x.s).trans sender
  have pids : ∀ i,
      (((parked kernel x.s x.r x.sendBuffer x.sendLen).modify at' write).proctab i).pid =
        (kernel.proctab i).pid := fun i => (congrArg Pcb.pid (same i)).trans (pid i)
  constructor
  · rfl
  · exact congrArg Pcb.state here
  · rw [pids x.r]
    exact congrArg Pcb.waitingPid here
  · exact ⟨congrArg Pcb.buffer here, congrArg Pcb.buffer_len here⟩
  · intro rq queue
    refine queue.congr rfl rfl fun i _ => ?_
    exact (congrArg Pcb.next (same i)).trans (kernel.modify_same x.s _ (·.next) rfl i)
  · exact pids

theorem parked_senders (kernel : Kernel) (x : Exchange) (i : Slot) :
    ((parked kernel x.s x.r x.sendBuffer x.sendLen).proctab i).senderQueue =
        (kernel.proctab i).senderQueue ∧
      ((parked kernel x.s x.r x.sendBuffer x.sendLen).proctab i).senderNext =
        (kernel.proctab i).senderNext :=
  ⟨kernel.modify_same x.s _ (·.senderQueue) rfl i, kernel.modify_same x.s _ (·.senderNext) rfl i⟩

structure Received (kernel k' : Kernel) (x : Exchange) : Prop where
  handed : ∃ k at' write, Parked kernel k x ∧ Relinks write ∧
    k' = (handed k (memCpy kernel.mem x.recvBuffer x.sendBuffer x.count) x.count x.s x.r).modify
      at' write
  senders : ∀ i, (k'.proctab i).senderQueue = (kernel.proctab i).senderQueue ∧
    (k'.proctab i).senderNext = (kernel.proctab i).senderNext

theorem sendFirst_alone (fresh : Fresh kernel x rq []) :
    ∃ k', sendFirst kernel x = some (answered k' x.r x.count) ∧ Received kernel k' x := by
  have nobody : (kernel.proctab x.r).senderQueue = none := fresh.senders.chain
  obtain ⟨k, isK⟩ : ∃ k, k = (parked kernel x.s x.r x.sendBuffer x.sendLen).modify x.r
    fun pcb => { pcb with senderQueue := some x.s } := ⟨_, rfl⟩
  have parked : Parked kernel k x := by
    rw [isK]
    exact parked_relinked kernel x x.r fun _ => rfl
  have queues : ∀ i, (k.proctab i).senderQueue =
      if i = x.r then some x.s else (kernel.proctab i).senderQueue := by
    intro i
    rw [isK, Kernel.modify_proctab]
    split
    · rfl
    · exact (parked_senders kernel x i).1
  have links : ∀ i, (k.proctab i).senderNext = (kernel.proctab i).senderNext := by
    intro i
    rw [isK, Kernel.modify_same _ x.r _ (·.senderNext) rfl]
    exact (parked_senders kernel x i).2
  have sent : send kernel x.s x.r x.sendBuffer x.sendLen = some (0, k) := by
    rw [send_parked fresh, nobody, isK]
    rfl
  obtain ⟨k₂, isK₂⟩ : ∃ k₂, k₂ = handed k
    (memCpy kernel.mem x.recvBuffer x.sendBuffer x.count) x.count x.s x.r := ⟨_, rfl⟩
  have queues₂ : ∀ i, (k₂.proctab i).senderQueue = (k.proctab i).senderQueue := by
    intro i
    rw [isK₂, handed_senderQueue]
  have links₂ : ∀ i, (k₂.proctab i).senderNext = (kernel.proctab i).senderNext := by
    intro i
    rw [isK₂, handed_senderNext, links]
  have received : recv k x.r x.s x.recvBuffer x.recvLen = some (x.count, k₂.modify x.r fun pcb =>
      { pcb with senderQueue := (k₂.proctab x.s).senderNext }) := by
    rw [recv_parked parked, queues, if_pos rfl, ← isK₂, unlinkSender, if_pos rfl]
  refine ⟨_, by rw [sendFirst, sent, Option.bind_some, received, Option.map_some], ?_, ?_⟩
  · exact ⟨k, x.r, fun pcb => { pcb with senderQueue := (k₂.proctab x.s).senderNext }, parked,
      fun _ => rfl, by rw [← isK₂]⟩
  · intro i
    constructor
    · rw [Kernel.modify_proctab]
      split
      · rename_i isR
        rw [links₂, fresh.unlinked, isR, nobody]
      · rename_i other
        rw [queues₂, queues, if_neg other]
    · rw [Kernel.modify_same _ x.r _ (·.senderNext) rfl, links₂]

/-! The sender parks behind the last one of those who wait. -/

def behind (kernel : Kernel) (x : Exchange) (last : Slot) : Kernel :=
  (parked kernel x.s x.r x.sendBuffer x.sendLen).modify last fun pcb =>
    { pcb with senderNext := some x.s }

def delivered (kernel : Kernel) (x : Exchange) (last : Slot) : Kernel :=
  handed (behind kernel x last) (memCpy kernel.mem x.recvBuffer x.sendBuffer x.count) x.count x.s
    x.r

theorem behind_parked (kernel : Kernel) (x : Exchange) (last : Slot) :
    Parked kernel (behind kernel x last) x := parked_relinked kernel x last fun _ => rfl

theorem behind_senderQueue (kernel : Kernel) (x : Exchange) (last i : Slot) :
    ((behind kernel x last).proctab i).senderQueue = (kernel.proctab i).senderQueue := by
  rw [behind, Kernel.modify_same _ last _ (·.senderQueue) rfl]
  exact (parked_senders kernel x i).1

theorem delivered_senderQueue (kernel : Kernel) (x : Exchange) (last i : Slot) :
    ((delivered kernel x last).proctab i).senderQueue = (kernel.proctab i).senderQueue := by
  rw [delivered, handed_senderQueue, behind_senderQueue]

theorem delivered_senderNext (kernel : Kernel) (x : Exchange) (last i : Slot) :
    ((delivered kernel x last).proctab i).senderNext =
      if i = last then some x.s else (kernel.proctab i).senderNext := by
  rw [delivered, handed_senderNext, behind, Kernel.modify_proctab]
  split
  · rfl
  · exact (parked_senders kernel x i).2

theorem delivered_pid (kernel : Kernel) (x : Exchange) (last i : Slot) :
    ((delivered kernel x last).proctab i).pid = (kernel.proctab i).pid := by
  have mail := congrArg Pcb.pid (handed_mail (behind kernel x last)
    (memCpy kernel.mem x.recvBuffer x.sendBuffer x.count) x.count x.s x.r i)
  exact mail.trans ((behind_parked kernel x last).pid i)

section Behind

variable {front : List Slot} {last : Slot}

theorem Fresh.notLast (fresh : Fresh kernel x rq (front ++ [last])) : x.s ≠ last :=
  fun same => fresh.notSender (by simp [same])

theorem send_behind (fresh : Fresh kernel x rq (front ++ [last])) :
    send kernel x.s x.r x.sendBuffer x.sendLen = some (0, behind kernel x last) := by
  rw [send_parked fresh]
  exact linkSender_behind x.s x.r
    (fresh.senders.chain.congr fun a _ => (parked_senders kernel x a).2)

theorem delivered_chain (fresh : Fresh kernel x rq (front ++ [last])) :
    Chain (delivered kernel x last).senderLink (kernel.proctab x.r).senderQueue
      (front ++ [last, x.s]) := by
  have chain := fresh.senders.chain
  apply chain.snoc
  · rw [Kernel.senderLink, delivered_senderNext, if_pos rfl]
  · rw [Kernel.senderLink, delivered_senderNext, if_neg fresh.notLast, fresh.unlinked]
  · intro node isIn
    have other : node ≠ last := fun same =>
      (List.nodup_append.mp chain.nodup).2.2 node isIn last (by simp) same
    rw [Kernel.senderLink, delivered_senderNext, if_neg other]
    rfl

theorem recv_behind (fresh : Fresh kernel x rq (front ++ [last])) :
    recv (behind kernel x last) x.r x.s x.recvBuffer x.recvLen =
      some (x.count, (delivered kernel x last).modify last fun pcb =>
        { pcb with senderNext := ((delivered kernel x last).proctab x.s).senderNext }) := by
  have others : ∀ node ∈ front ++ [last],
      ((delivered kernel x last).proctab node).pid ≠
        ((delivered kernel x last).proctab x.s).pid := by
    intro node isIn same
    rw [delivered_pid, delivered_pid] at same
    have live : (kernel.proctab node).state ≠ .stopped := by
      rw [(fresh.senders.blocked node isIn).1]
      decide
    have isSender := fresh.named.distinct node x.s live fresh.live.1 same
    exact fresh.notSender (isSender ▸ isIn)
  rw [recv_parked (behind_parked kernel x last), behind_senderQueue, ← delivered]
  exact unlinkSender_behind x.count x.r (delivered_chain fresh) others

theorem sendFirst_behind (fresh : Fresh kernel x rq (front ++ [last])) :
    ∃ k', sendFirst kernel x = some (answered k' x.r x.count) ∧ Received kernel k' x := by
  have ends : (kernel.proctab last).senderNext = none := Seg.next_of_split fresh.senders.chain
  refine ⟨_, by rw [sendFirst, send_behind fresh, Option.bind_some, recv_behind fresh,
    Option.map_some], ?_, ?_⟩
  · exact ⟨behind kernel x last, last, fun pcb =>
      { pcb with senderNext := ((delivered kernel x last).proctab x.s).senderNext },
      behind_parked kernel x last, fun _ => rfl, rfl⟩
  · intro i
    constructor
    · rw [Kernel.modify_same _ last _ (·.senderQueue) rfl, delivered_senderQueue]
    · rw [Kernel.modify_proctab]
      split
      · rename_i isLast
        rw [delivered_senderNext, if_neg fresh.notLast, fresh.unlinked, isLast, ends]
      · rename_i other
        rw [delivered_senderNext, if_neg other]

end Behind

theorem sendFirst_received (fresh : Fresh kernel x rq senders) :
    ∃ k', sendFirst kernel x = some (answered k' x.r x.count) ∧ Received kernel k' x := by
  rcases List.eq_nil_or_concat senders with rfl | ⟨front, last, rfl⟩
  · exact sendFirst_alone fresh
  · rw [List.concat_eq_append] at fresh
    exact sendFirst_behind fresh

/-! Both orders. -/

theorem Received.handover {k' : Kernel} (received : Received kernel k' x)
    (fresh : Fresh kernel x rq senders) :
    Handover k' (memCpy kernel.mem x.recvBuffer x.sendBuffer x.count) x.count x.s x.r
      (rq ++ [x.s] ++ [x.r]) := by
  obtain ⟨k, at', write, parked, relinks, rfl⟩ := received.handed
  have done := handed_handover (memCpy kernel.mem x.recvBuffer x.sendBuffer x.count) x.count
    (parked.queue rq fresh.queue) fresh.absent.1 fresh.absent.2 fresh.different
  apply done.modify at'
  · intro pcb
    have same := congrArg Pcb.ret (relinks pcb)
    exact same
  · intro pcb
    have same := congrArg Pcb.state (relinks pcb)
    exact same
  · intro pcb
    have same := congrArg Pcb.next (relinks pcb)
    exact same

theorem copied_bytes (kernel : Kernel) (apart : x.Apart) (left : 0 ≤ x.sendLen.toInt)
    (right : 0 ≤ x.recvLen.toInt) (addr : Word) :
    memCpy kernel.mem x.recvBuffer x.sendBuffer x.count addr =
      if addr - x.recvBuffer < x.count then kernel.mem (x.sendBuffer + (addr - x.recvBuffer))
      else kernel.mem addr := by
  rw [memCpy_eq]
  exact copied_apart (apart.copy left right)

end Exchange

open Exchange

/-- Whether the sender or the receiver comes first: the first `count` bytes of the message are in
the buffer and the rest of memory is untouched, both processes get the smaller of the two lengths
and are made ready once, and the queues of senders are as before. -/
theorem rendezvous_order {kernel : Kernel} {x : Exchange} {rq senders : List Slot}
    (fresh : Fresh kernel x rq senders) (apart : x.Apart) (sendLen : 0 ≤ x.sendLen.toInt)
    (recvLen : 0 ≤ x.recvLen.toInt) :
    x.count.toInt = min x.sendLen.toInt x.recvLen.toInt ∧
    ∃ first second, sendFirst kernel x = some first ∧ recvFirst kernel x = some second ∧
      Met kernel first x (rq ++ [x.s] ++ [x.r]) ∧ Met kernel second x (rq ++ [x.r] ++ [x.s]) := by
  refine ⟨minLen_toInt _ _, ?_⟩
  obtain ⟨k', sent, received⟩ := sendFirst_received fresh
  refine ⟨_, _, sent, recvFirst_eq fresh, ?_, ?_⟩
  · obtain ⟨done, ret⟩ := (received.handover fresh).answers fresh.different
    constructor
    · intro addr
      rw [done.mem, copied_bytes kernel apart sendLen recvLen]
    · exact ⟨done.ret, ret⟩
    · exact done.ready
    · exact done.queue
    · intro i
      rw [(answered_senders k' x.r x.count i).1, (answered_senders k' x.r x.count i).2]
      exact received.senders i
  · have awaits : ReadyQueue
        (awaiting kernel x.r (kernel.proctab x.s).pid x.recvBuffer x.recvLen) rq := by
      refine fresh.queue.congr rfl rfl fun i _ => ?_
      exact kernel.modify_same x.r _ (·.next) rfl i
    obtain ⟨done, ret⟩ := (handed_handover
      (memCpy kernel.mem x.recvBuffer x.sendBuffer x.count) x.count awaits fresh.absent.2
      fresh.absent.1 fresh.different.symm).answers fresh.different.symm
    constructor
    · intro addr
      rw [done.mem, copied_bytes kernel apart sendLen recvLen]
    · exact ⟨ret, done.ret⟩
    · exact done.ready.symm
    · exact done.queue
    · intro i
      rw [(answered_senders _ x.s x.count i).1, (answered_senders _ x.s x.count i).2]
      constructor
      · rw [handed_senderQueue]
        exact kernel.modify_same x.r _ (·.senderQueue) rfl i
      · rw [Kernel.senderLink, handed_senderNext]
        exact kernel.modify_same x.r _ (·.senderNext) rfl i

def FreshCheck (kernel : Kernel) (x : Exchange) (rq senders : List Slot) : Prop :=
  (∀ i, (kernel.proctab i).state ≠ .stopped → ∀ j, (kernel.proctab j).state ≠ .stopped →
    (kernel.proctab i).pid = (kernel.proctab j).pid → i = j) ∧
  x.s ≠ x.r ∧
  ((kernel.proctab x.s).state ≠ .stopped ∧ (kernel.proctab x.r).state ≠ .stopped) ∧
  (kernel.proctab x.s).state ≠ .blockedSend ∧
  ((kernel.proctab x.r).state ≠ .blockedRecv ∧ (kernel.proctab x.r).waitingPid ≠ -1) ∧
  (kernel.proctab x.s).senderNext = none ∧
  (Chain kernel.link kernel.head rq ∧ kernel.tail = rq.getLast?) ∧ (x.s ∉ rq ∧ x.r ∉ rq) ∧
  SendersWait kernel x.r senders

instance (kernel : Kernel) (x : Exchange) (rq senders : List Slot) :
    Decidable (FreshCheck kernel x rq senders) := inferInstanceAs (Decidable (_ ∧ _))

theorem FreshCheck.fresh (check : FreshCheck kernel x rq senders) :
    Fresh kernel x rq senders := by
  obtain ⟨named, different, live, sending, receiving, unlinked, queue, absent, waits⟩ := check
  exact ⟨⟨fun i j liveI liveJ => named i liveI j liveJ⟩, different, live, sending, receiving,
    unlinked, ⟨queue.1, queue.2⟩, absent, waits⟩

def sampleExchange : Exchange := ⟨1, 3, 0x80000, 6, 0x90000, 4⟩

theorem rendezvous_order_third : ∃ kernel first second, FreshCheck kernel sampleExchange [] [2] ∧
    sendFirst kernel sampleExchange = some first ∧
    recvFirst kernel sampleExchange = some second ∧
    (first.proctab 3).ret = 4 ∧ (second.proctab 3).ret = 4 := by
  obtain ⟨_, s, _, _, _, check⟩ := msgRun_of_check Allowed [.yield, .call (.send 3 0x80000 4)]
    (fun s => FreshCheck (popped s.kernel 3) sampleExchange [] [2]) (by decide +kernel)
  have apart : sampleExchange.Apart := by
    intro i j inMessage inBuffer
    simp only [sampleExchange] at inMessage inBuffer ⊢
    bv_omega
  obtain ⟨_, first, second, sent, received, met, met'⟩ :=
    rendezvous_order check.fresh apart (by decide) (by decide)
  exact ⟨_, first, second, check, sent, received, met.counts.2, met'.counts.2⟩

end XerosKernel
