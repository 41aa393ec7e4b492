import XerosKernel.MemoryCopies
import XerosKernel.MessagePassing
import XerosKernel.SignalFrames

/-!
`recvAny` against `recv` from the head of the sender queue. The two agree in everything they do;
what `recvAny` does not do is to store the number of the sender.
-/

namespace XerosKernel

open Execution IntrusiveList

variable {kernel : Kernel} {src h : Slot} {rest : List Slot}

theorem loadWord_bytes (mem : Memory) (addr : Word) :
    (loadWord mem addr).extractLsb' 0 8 = mem addr ∧
      (loadWord mem addr).extractLsb' 8 8 = mem (addr + 1) ∧
      (loadWord mem addr).extractLsb' 16 8 = mem (addr + 2) ∧
      (loadWord mem addr).extractLsb' 24 8 = mem (addr + 3) := by
  refine ⟨?_, ?_, ?_, ?_⟩
  all_goals
    ext i bound
    simp only [loadWord, BitVec.getElem_extractLsb', BitVec.getLsbD_append]
    grind

theorem storeWord_same {mem : Memory} {addr value : Word} :
    storeWord mem addr value = mem ↔ loadWord mem addr = value := by
  constructor
  · intro same
    rw [← same, loadWord_storeWord]
  · rintro rfl
    obtain ⟨first, second, third, fourth⟩ := loadWord_bytes mem addr
    funext a
    simp only [storeWord, storeByte, first, second, third, fourth]
    split_ifs <;> simp_all

/-- The sender queue of `src`: processes that block until `src` takes their message. -/
structure SendersWait (kernel : Kernel) (src : Slot) (senders : List Slot) : Prop where
  chain : Chain kernel.senderLink (kernel.proctab src).senderQueue senders
  blocked : ∀ q ∈ senders, (kernel.proctab q).state = .blockedSend ∧
    (kernel.proctab q).waitingPid = (kernel.proctab src).pid

instance (kernel : Kernel) (src : Slot) (senders : List Slot) :
    Decidable (SendersWait kernel src senders) :=
  decidable_of_iff (Chain kernel.senderLink (kernel.proctab src).senderQueue senders ∧
      ∀ q ∈ senders, (kernel.proctab q).state = .blockedSend ∧
        (kernel.proctab q).waitingPid = (kernel.proctab src).pid)
    ⟨fun both => ⟨both.1, both.2⟩, fun senders => ⟨senders.chain, senders.blocked⟩⟩

def taken (kernel : Kernel) (src h : Slot) (buffer buffer_len : Word) : Kernel :=
  let value := minLen buffer_len (kernel.proctab h).buffer_len
  let kernel := handed kernel (memCpy kernel.mem buffer (kernel.proctab h).buffer value) value h src
  kernel.modify src fun pcb => { pcb with senderQueue := (kernel.proctab h).senderNext }

theorem taken_mem (kernel : Kernel) (src h : Slot) (buffer buffer_len : Word) :
    (taken kernel src h buffer buffer_len).mem = copied kernel.mem buffer (kernel.proctab h).buffer
      (minLen buffer_len (kernel.proctab h).buffer_len) := by
  simp only [taken, handed, Kernel.modify_mem, ready_mem, memCpy_eq]

theorem handed_senderQueue (mem : Memory) (value : Word) (q p i : Slot) :
    ((handed kernel mem value q p).proctab i).senderQueue = (kernel.proctab i).senderQueue := by
  have mail := congrArg Pcb.senderQueue (handed_mail kernel mem value q p i)
  exact mail

theorem recvAny_head (head : (kernel.proctab src).senderQueue = some h)
    (from_pid buffer buffer_len : Word) :
    recvAny kernel src from_pid buffer buffer_len =
      some (minLen buffer_len (kernel.proctab h).buffer_len,
        taken kernel src h buffer buffer_len) := by
  simp only [recvAny, head]
  rfl

theorem recv_head (head : (kernel.proctab src).senderQueue = some h)
    (state : (kernel.proctab h).state = .blockedSend)
    (waits : (kernel.proctab h).waitingPid = (kernel.proctab src).pid)
    (buffer buffer_len : Word) : recv kernel src h buffer buffer_len =
      some (minLen buffer_len (kernel.proctab h).buffer_len,
        taken kernel src h buffer buffer_len) := by
  have test : ∀ value mem, value = minLen buffer_len (kernel.proctab h).buffer_len →
      mem = memCpy kernel.mem buffer (kernel.proctab h).buffer value →
      recv kernel src h buffer buffer_len = unlinkSender (handed kernel mem value h src) value src h
        ((handed kernel mem value h src).proctab src).senderQueue := by
    rintro value mem rfl rfl
    exact if_pos ⟨state, waits⟩
  rw [test _ _ rfl rfl, handed_senderQueue, head, unlinkSender, if_pos rfl]
  rfl

/-- What `recvAny` is documented to do besides: `*from_pid` is the number of the sender. -/
def told (kernel : Kernel) (from_pid pid : Word) : Kernel :=
  { kernel with mem := storeWord kernel.mem from_pid pid }

theorem told_same {from_pid pid : Word} :
    told kernel from_pid pid = kernel ↔ loadWord kernel.mem from_pid = pid := by
  rw [← storeWord_same]
  constructor
  · intro same
    exact congrArg Kernel.mem same
  · intro same
    rw [told, same]

/-- `recvAny` does all that `recv` from the head of the queue does, and nothing more. So the number
of the sender is at `from_pid` exactly if it is in the message there, or in memory before. -/
theorem recvAny_agrees {kernel : Kernel} {src h : Slot} {rest : List Slot}
    {from_pid buffer buffer_len : Word} (senders : SendersWait kernel src (h :: rest)) :
    recvAny kernel src from_pid buffer buffer_len = recv kernel src h buffer buffer_len ∧
    (recvAny kernel src from_pid buffer buffer_len =
        (recv kernel src h buffer buffer_len).map (fun result =>
          (result.1, told result.2 from_pid (kernel.proctab h).pid)) ↔
      loadWord (copied kernel.mem buffer (kernel.proctab h).buffer
        (minLen buffer_len (kernel.proctab h).buffer_len)) from_pid = (kernel.proctab h).pid) := by
  have head := senders.chain.1
  obtain ⟨state, waits⟩ := senders.blocked h (List.mem_cons_self ..)
  have any := recvAny_head head from_pid buffer buffer_len
  have directed := recv_head head state waits buffer buffer_len
  refine ⟨any.trans directed.symm, ?_⟩
  rw [any, directed, Option.map_some, Option.some.injEq, Prod.mk.injEq, ← taken_mem, ← told_same]
  constructor
  · rintro ⟨_, same⟩
    exact same.symm
  · intro same
    exact ⟨rfl, same.symm⟩

theorem recvAny_agrees_two : ∃ s : MsgRun, SendersWait s.kernel s.current [2, 1] ∧
    recvAny s.kernel s.current 0x70000 0x90000 4 = recv s.kernel s.current 2 0x90000 4 := by
  obtain ⟨_, s, _, _, _, senders⟩ := msgRun_of_check Allowed senderRun
    (fun s => SendersWait s.kernel s.current [2, 1]) (by decide +kernel)
  exact ⟨s, senders, (recvAny_agrees senders).1⟩

/-- The third process does not learn who sent the message. -/
theorem recvAny_untold : ∃ start s : MsgRun, ∃ value kernel', Idle start ∧
    run msgStep start senderRun = some s ∧ SendersWait s.kernel s.current [2, 1] ∧
    recvAny s.kernel s.current 0x70000 0x90000 4 = some (value, kernel') ∧
    loadWord kernel'.mem 0x70000 = 0 ∧ (s.kernel.proctab 2).pid = 2 := by
  obtain ⟨start, s, idle, _, reached, senders, ⟨value, kernel'⟩, received, word, pid⟩ :=
    msgRun_of_check Allowed senderRun
      (fun s => SendersWait s.kernel s.current [2, 1] ∧
        ∃ result ∈ recvAny s.kernel s.current 0x70000 0x90000 4,
          loadWord result.2.mem 0x70000 = 0 ∧ (s.kernel.proctab 2).pid = 2) (by decide +kernel)
  exact ⟨start, s, value, kernel', idle, reached, senders, received, word, pid⟩

end XerosKernel
