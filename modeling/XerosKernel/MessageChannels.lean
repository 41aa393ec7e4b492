import XerosKernel.CallResults
import XerosKernel.Handshake
import XerosKernel.MessagePassing
import XerosKernel.Rendezvous

/-!
The calls of `msg.c` as synchronous message passing. While no message meets an old registration and
no sender blocks with an old link, every run of calls is a run of handshakes: what a process sends
to another one is copied to it once and in order, and no two processes wait for each other to take a
message.
-/

namespace XerosKernel

open Execution IntrusiveList Handshake

/-- What a call registers in the entry of a process that blocks. -/
structure Letter where
  state : ProcState
  waitingPid : Word
  buffer : Word
  buffer_len : Word
  deriving DecidableEq

def Pcb.letter (pcb : Pcb) : Letter :=
  { state := pcb.state, waitingPid := pcb.waitingPid, buffer := pcb.buffer,
    buffer_len := pcb.buffer_len }

structure Hands (kernel kernel' : Kernel) (q p : Slot) (load room : Word × Word) : Prop where
  mem : kernel'.mem = memCpy kernel.mem room.1 load.1 (minLen load.2 room.2)
  letter : ∀ i, (kernel'.proctab i).letter =
    if i = p ∨ i = q then { (kernel.proctab i).letter with state := .ready }
    else (kernel.proctab i).letter
  pid : ∀ i, (kernel'.proctab i).pid = (kernel.proctab i).pid
  ret : (kernel'.proctab q).ret = minLen load.2 room.2

structure Blocks (kernel kernel' : Kernel) (p : Slot) (letter : Letter) : Prop where
  mem : kernel'.mem = kernel.mem
  letter : ∀ i, (kernel'.proctab i).letter = if i = p then letter else (kernel.proctab i).letter
  pid : ∀ i, (kernel'.proctab i).pid = (kernel.proctab i).pid

section Letter

variable {kernel : Kernel} {i : Slot} {letter : Letter}

theorem state_of_letter (same : (kernel.proctab i).letter = letter) :
    (kernel.proctab i).state = letter.state := congrArg Letter.state same

theorem waitingPid_of_letter (same : (kernel.proctab i).letter = letter) :
    (kernel.proctab i).waitingPid = letter.waitingPid := congrArg Letter.waitingPid same

theorem buffer_of_letter (same : (kernel.proctab i).letter = letter) :
    ((kernel.proctab i).buffer, (kernel.proctab i).buffer_len) =
      (letter.buffer, letter.buffer_len) :=
  Prod.ext (congrArg Letter.buffer same) (congrArg Letter.buffer_len same)

theorem letter_stopped (same : (kernel.proctab i).letter = letter)
    (notStopped : letter.state ≠ .stopped) : (kernel.proctab i).state ≠ .stopped := by
  rwa [state_of_letter same]

end Letter

section Calls

variable {kernel kernel' : Kernel} {p q dst : Slot} {buffer buffer_len value : Word}

theorem ready_letter (kernel : Kernel) (p i : Slot) : ((ready kernel p).proctab i).letter =
    if i = p then { (kernel.proctab i).letter with state := .ready }
    else (kernel.proctab i).letter := by
  rw [ready_proctab]
  by_cases same : i = p <;> simp [Pcb.letter, same]

theorem modify_letter (kernel : Kernel) (q i : Slot) {write : Pcb → Pcb}
    (same : (write (kernel.proctab q)).letter = (kernel.proctab q).letter) :
    ((kernel.modify q write).proctab i).letter = (kernel.proctab i).letter :=
  kernel.modify_same q write Pcb.letter same i

theorem handed_letter (kernel : Kernel) (mem : Memory) (value : Word) (q p i : Slot) :
    ((handed kernel mem value q p).proctab i).letter =
      if i = p ∨ i = q then { (kernel.proctab i).letter with state := .ready }
      else (kernel.proctab i).letter := by
  have answered : ((({ kernel with mem := mem }).modify q fun pcb =>
      { pcb with ret := value }).proctab i).letter = (kernel.proctab i).letter :=
    modify_letter _ q i rfl
  rw [handed, ready_letter, ready_letter, answered]
  by_cases isP : i = p
  · rw [if_pos isP, if_pos (Or.inl isP)]
    split <;> rfl
  · rw [if_neg isP]
    simp only [isP, false_or]

theorem handed_hands (kernel : Kernel) (q p : Slot) (load room : Word × Word) :
    Hands kernel (handed kernel (memCpy kernel.mem room.1 load.1 (minLen load.2 room.2))
      (minLen load.2 room.2) q p) q p load room := by
  refine ⟨?_, fun i => handed_letter kernel _ _ q p i, fun i => ?_, ?_⟩
  · rw [handed, ready_mem, ready_mem]
    rfl
  · have pid := congrArg Pcb.pid (handed_mail kernel (memCpy kernel.mem room.1 load.1
      (minLen load.2 room.2)) (minLen load.2 room.2) q p i)
    exact pid
  · rw [handed, ready_ret, ready_ret, Kernel.modify_proctab, if_pos rfl]

theorem Hands.modify {load room : Word × Word} (hands : Hands kernel kernel' q p load room)
    (at' : Slot) {write : Pcb → Pcb} (letter : ∀ pcb, (write pcb).letter = pcb.letter)
    (pid : ∀ pcb, (write pcb).pid = pcb.pid) (ret : ∀ pcb, (write pcb).ret = pcb.ret) :
    Hands kernel (kernel'.modify at' write) q p load room :=
  ⟨hands.mem, fun i => (modify_letter kernel' at' i (letter _)).trans (hands.letter i),
    fun i => (kernel'.modify_same at' write (·.pid) (pid _) i).trans (hands.pid i),
    (kernel'.modify_same at' write (·.ret) (ret _) q).trans hands.ret⟩

theorem Blocks.modify {letter : Letter} (blocks : Blocks kernel kernel' p letter) (at' : Slot)
    {write : Pcb → Pcb} (same : ∀ pcb, (write pcb).letter = pcb.letter)
    (pid : ∀ pcb, (write pcb).pid = pcb.pid) :
    Blocks kernel (kernel'.modify at' write) p letter :=
  ⟨blocks.mem, fun i => (modify_letter kernel' at' i (same _)).trans (blocks.letter i),
    fun i => (kernel'.modify_same at' write (·.pid) (pid _) i).trans (blocks.pid i)⟩

theorem parked_blocks (kernel : Kernel) (p dst : Slot) (buffer buffer_len : Word) :
    Blocks kernel (parked kernel p dst buffer buffer_len) p
      ⟨.blockedSend, (kernel.proctab dst).pid, buffer, buffer_len⟩ := by
  refine ⟨rfl, fun i => ?_, fun i => ?_⟩
  · by_cases same : i = p <;> simp [parked, Pcb.letter, same]
  · by_cases same : i = p <;> simp [parked, same]

theorem awaiting_blocks (kernel : Kernel) (p : Slot) (waitingPid buffer buffer_len : Word) :
    Blocks kernel (awaiting kernel p waitingPid buffer buffer_len) p
      ⟨.blockedRecv, waitingPid, buffer, buffer_len⟩ := by
  refine ⟨rfl, fun i => ?_, fun i => ?_⟩
  · by_cases same : i = p <;> simp [awaiting, Pcb.letter, same]
  · by_cases same : i = p <;> simp [awaiting, same]

theorem send_hands (buffer buffer_len : Word) (delivers : Delivers kernel p dst) :
    ∃ kernel', send kernel p dst buffer buffer_len =
        some (minLen buffer_len (kernel.proctab dst).buffer_len, kernel') ∧
      Hands kernel kernel' dst p (buffer, buffer_len)
        ((kernel.proctab dst).buffer, (kernel.proctab dst).buffer_len) :=
  ⟨_, if_pos delivers, handed_hands kernel dst p (buffer, buffer_len)
    ((kernel.proctab dst).buffer, (kernel.proctab dst).buffer_len)⟩

theorem send_blocks (refused : ¬ Delivers kernel p dst)
    (served : send kernel p dst buffer buffer_len = some (value, kernel')) :
    Blocks kernel kernel' p ⟨.blockedSend, (kernel.proctab dst).pid, buffer, buffer_len⟩ := by
  have parked := parked_blocks kernel p dst buffer buffer_len
  have walk : send kernel p dst buffer buffer_len = linkSender
      (XerosKernel.parked kernel p dst buffer buffer_len) p dst
      ((XerosKernel.parked kernel p dst buffer buffer_len).proctab dst).senderQueue := if_neg refused
  rw [walk] at served
  unfold linkSender at served
  split at served
  · cases served
    exact parked.modify dst (fun _ => rfl) fun _ => rfl
  · split at served
    · cases served
    · cases served
      exact parked.modify _ (fun _ => rfl) fun _ => rfl

theorem recv_hands (waits : (kernel.proctab q).state = .blockedSend ∧
      (kernel.proctab q).waitingPid = (kernel.proctab p).pid)
    (served : recv kernel p q buffer buffer_len = some (value, kernel')) :
    value = minLen (kernel.proctab q).buffer_len buffer_len ∧
      Hands kernel kernel' q p ((kernel.proctab q).buffer, (kernel.proctab q).buffer_len)
        (buffer, buffer_len) := by
  have hands := handed_hands kernel q p ((kernel.proctab q).buffer, (kernel.proctab q).buffer_len)
    (buffer, buffer_len)
  have walk : recv kernel p q buffer buffer_len = _ := if_pos waits
  rw [walk, minLen_comm] at served
  split at served
  · cases served
  · split at served
    · cases served
      exact ⟨rfl, hands.modify p (fun _ => rfl) (fun _ => rfl) fun _ => rfl⟩
    · split at served
      · cases served
      · cases served
        exact ⟨rfl, hands.modify _ (fun _ => rfl) (fun _ => rfl) fun _ => rfl⟩

theorem recvAny_hands (from_pid : Word) (head : (kernel.proctab p).senderQueue = some q)
    (served : recvAny kernel p from_pid buffer buffer_len = some (value, kernel')) :
    value = minLen (kernel.proctab q).buffer_len buffer_len ∧
      Hands kernel kernel' q p ((kernel.proctab q).buffer, (kernel.proctab q).buffer_len)
        (buffer, buffer_len) := by
  have hands := handed_hands kernel q p ((kernel.proctab q).buffer, (kernel.proctab q).buffer_len)
    (buffer, buffer_len)
  simp only [recvAny, head] at served
  rw [minLen_comm] at served
  cases served
  exact ⟨rfl, hands.modify p (fun _ => rfl) (fun _ => rfl) fun _ => rfl⟩

structure Replies (kernel kernel' : Kernel) (p : Slot) (value : Word) : Prop where
  mem : kernel'.mem = kernel.mem
  letter : ∀ i, (kernel'.proctab i).letter = (kernel.proctab i).letter
  pid : ∀ i, (kernel'.proctab i).pid = (kernel.proctab i).pid
  ret : ∀ i, (kernel'.proctab i).ret = if i = p then value else (kernel.proctab i).ret

theorem reschedule_replies {d : Dispatcher} (p : Slot) (value : Word)
    (popped : reschedule (kernel.modify p fun pcb => { pcb with ret := value }) = some d) :
    Replies kernel d.kernel p value := by
  have unlinked := reschedule_unlinked popped
  have mem := congrArg Kernel.mem unlinked
  refine ⟨mem, fun i => ?_, fun i => ?_, fun i => ?_⟩
  · exact (unlinked_same unlinked Pcb.letter (fun _ => rfl) i).trans (modify_letter kernel p i rfl)
  · exact (unlinked_same unlinked (·.pid) (fun _ => rfl) i).trans
      (kernel.modify_same p (fun pcb => { pcb with ret := value }) (·.pid) rfl i)
  · rw [unlinked_same unlinked (·.ret) (fun _ => rfl) i, Kernel.modify_proctab]
    split <;> rfl

theorem dispatchMsg_replies {d d' : Dispatcher} {call : MsgCall}
    (stepped : dispatchMsg d call = some d') : ∃ value kernel',
      call.serve d.kernel d.current = some (value, kernel') ∧
        Replies kernel' d'.kernel d.current value := by
  obtain ⟨⟨value, kernel'⟩, served, popped⟩ := Option.bind_eq_some_iff.mp stepped
  exact ⟨value, kernel', served, reschedule_replies d.current value popped⟩

end Calls

/-! Calls as handshakes. -/

/-- A message is the address and the length of a buffer, and so is the room for it. -/
abbrev Channels := Handshake.State Slot (Word × Word) (Word × Word)

abbrev MsgExchange := Handshake.Exchange Slot (Word × Word) (Word × Word)

def MsgCall.handshake : MsgCall → Handshake.Call Slot (Word × Word) (Word × Word)
  | send dstPcb buffer buffer_len => .send dstPcb (buffer, buffer_len)
  | recv fromPcb buffer buffer_len => .receive (some fromPcb) (buffer, buffer_len)
  | recvAny _ buffer buffer_len => .receive none (buffer, buffer_len)

def sourcePid (kernel : Kernel) : Option Slot → Word
  | none => -1
  | some q => (kernel.proctab q).pid

def Addressable (kernel : Kernel) (q : Slot) : Prop :=
  (kernel.proctab q).state ≠ .stopped ∧ (kernel.proctab q).pid ≠ -1

/-- The entries of the blocked processes say what they wait for. -/
structure Carries (kernel : Kernel) (order : List Slot) (state : Channels) : Prop where
  order : state.offers.map (·.sender) = order
  dest : ∀ offer ∈ state.offers, (kernel.proctab offer.dest).state ≠ .stopped
  offers : ∀ offer ∈ state.offers, (kernel.proctab offer.sender).letter =
    ⟨.blockedSend, (kernel.proctab offer.dest).pid, offer.load.1, offer.load.2⟩
  source : ∀ d, ∀ want ∈ state.wants d, ∀ q ∈ want.source, Addressable kernel q
  wants : ∀ d, ∀ want ∈ state.wants d, (kernel.proctab d).letter =
    ⟨.blockedRecv, sourcePid kernel want.source, want.room.1, want.room.2⟩
  free : ∀ d, state.wants d = none → (kernel.proctab d).state ≠ .blockedRecv

section Step

variable {kernel kernel' : Kernel} {p q dst : Slot} {rq order : List Slot} {state : Channels}

theorem Settled.free (settled : Settled kernel p rq order) (carries : Carries kernel order state) :
    Free state p := by
  constructor
  · rw [carries.order]
    exact settled.notBlocked
  · cases wants : state.wants p with
    | none => rfl
    | some want =>
        have running := settled.running
        rw [state_of_letter (carries.wants p want wants)] at running
        cases running

theorem Carries.delivers (carries : Carries kernel order state)
    (settled : Settled kernel p rq order) (registered : Registered kernel dst) :
    Delivers kernel p dst ↔ ∃ want ∈ state.wants dst, Accepts want.source p := by
  rw [delivers_iff registered]
  constructor
  · rintro ⟨blocked, number⟩
    cases wants : state.wants dst with
    | none => exact absurd blocked (carries.free dst wants)
    | some want =>
        refine ⟨want, rfl, fun q isSource => ?_⟩
        obtain ⟨live, real⟩ := carries.source dst want wants q isSource
        have source : want.source = some q := isSource
        rw [waitingPid_of_letter (carries.wants dst want wants), source] at number
        rcases number with same | any
        · exact settled.named_eq q live same
        · exact absurd any real
  · rintro ⟨want, wants, accepts⟩
    have letter := carries.wants dst want wants
    refine ⟨state_of_letter letter, ?_⟩
    rw [waitingPid_of_letter letter]
    cases source : want.source with
    | none => exact Or.inr rfl
    | some q =>
        have isP : q = p := accepts q source
        exact Or.inl (by rw [isP]; rfl)

theorem Carries.offered (carries : Carries kernel order state) (member : q ∈ order) :
    ∃ offer ∈ state.offers, offer.sender = q := by
  rw [← carries.order] at member
  exact List.mem_map.mp member

theorem Carries.waits (carries : Carries kernel order state) (settled : Settled kernel p rq order) :
    (kernel.proctab q).state = .blockedSend ∧
        (kernel.proctab q).waitingPid = (kernel.proctab p).pid ↔
      ∃ offer ∈ state.offers, offer.sender = q ∧ offer.dest = p := by
  constructor
  · rintro ⟨blocked, number⟩
    obtain ⟨offer, isOffer, rfl⟩ := carries.offered ((settled.mail.blocked q).mpr blocked)
    refine ⟨offer, isOffer, rfl, settled.named_eq _ (carries.dest offer isOffer) ?_⟩
    rw [← number, waitingPid_of_letter (carries.offers offer isOffer)]
  · rintro ⟨offer, isOffer, rfl, rfl⟩
    have letter := carries.offers offer isOffer
    exact ⟨state_of_letter letter, waitingPid_of_letter letter⟩

theorem Carries.toOther (carries : Carries kernel order state)
    (settled : Settled kernel p rq order) {offer : Offer Slot (Word × Word)}
    (member : offer ∈ state.offers) (other : offer.dest ≠ p) :
    (kernel.proctab offer.sender).waitingPid ≠ (kernel.proctab p).pid := by
  rw [waitingPid_of_letter (carries.offers offer member)]
  exact fun same => other (settled.named_eq _ (carries.dest offer member) same)

theorem Carries.head (carries : Carries kernel order state) (settled : Settled kernel p rq order)
    {offer : Offer Slot (Word × Word)} {front back : List (Offer Slot (Word × Word))}
    (split : state.offers = front ++ offer :: back) (isDest : offer.dest = p)
    (others : ∀ other ∈ front, other.dest ≠ p) :
    (kernel.proctab p).senderQueue = some offer.sender := by
  have chain : Chain kernel.senderLink (kernel.proctab p).senderQueue (sendersTo kernel order p) :=
    settled.mail.queues p settled.live
  have noFront : (front.map (·.sender)).filter (fun q =>
      (kernel.proctab q).waitingPid = (kernel.proctab p).pid) = [] := by
    refine List.filter_eq_nil_iff.mpr fun q member => ?_
    obtain ⟨other, inFront, rfl⟩ := List.mem_map.mp member
    have isOffer : other ∈ state.offers := by
      rw [split]
      exact List.mem_append_left _ inFront
    simpa using carries.toOther settled isOffer (others other inFront)
  have first : (kernel.proctab offer.sender).waitingPid = (kernel.proctab p).pid :=
    ((carries.waits settled).mpr ⟨offer, by simp [split], rfl, isDest⟩).2
  rw [← carries.order, split, List.map_append, List.map_cons, sendersTo, waiting,
    List.filter_append, noFront, List.filter_cons_of_pos (by simpa using first)] at chain
  exact chain.1

theorem Carries.noHead (carries : Carries kernel order state) (settled : Settled kernel p rq order)
    (nobody : ∀ offer ∈ state.offers, offer.dest ≠ p) :
    (kernel.proctab p).senderQueue = none := by
  have chain : Chain kernel.senderLink (kernel.proctab p).senderQueue (sendersTo kernel order p) :=
    settled.mail.queues p settled.live
  have empty : sendersTo kernel order p = [] := by
    refine List.filter_eq_nil_iff.mpr fun q member => ?_
    obtain ⟨offer, isOffer, rfl⟩ := carries.offered member
    simpa using carries.toOther settled isOffer (nobody offer isOffer)
  rw [empty] at chain
  exact chain

/-! One call. -/

def Copies (kernel kernel' : Kernel) :
    Option (Transfer Slot (Word × Word) (Word × Word)) → Prop
  | none => kernel'.mem = kernel.mem
  | some t => kernel'.mem = memCpy kernel.mem t.room.1 t.load.1 (minLen t.load.2 t.room.2) ∧
      (kernel'.proctab t.sender).ret = minLen t.load.2 t.room.2 ∧
      (kernel'.proctab t.receiver).ret = minLen t.load.2 t.room.2

theorem Hands.copies {kernel'' : Kernel} {load room : Word × Word} {value : Word}
    (hands : Hands kernel kernel' q p load room) (done : Replies kernel' kernel'' p value)
    (count : value = minLen load.2 room.2) :
    Copies kernel kernel'' (some ⟨p, q, load, room⟩) ∧
      Copies kernel kernel'' (some ⟨q, p, load, room⟩) := by
  have mem := done.mem.trans hands.mem
  have caller : (kernel''.proctab p).ret = minLen load.2 room.2 := by
    rw [done.ret, if_pos rfl, count]
  have other : (kernel''.proctab q).ret = minLen load.2 room.2 := by
    rw [done.ret]
    split
    · exact count
    · exact hands.ret
  exact ⟨⟨mem, caller, other⟩, ⟨mem, other, caller⟩⟩

theorem Hands.dispatched {kernel'' : Kernel} {load room : Word × Word} {value : Word}
    (hands : Hands kernel kernel' q p load room) (done : Replies kernel' kernel'' p value) :
    (∀ i, (kernel''.proctab i).letter =
      if i = p ∨ i = q then { (kernel.proctab i).letter with state := .ready }
      else (kernel.proctab i).letter) ∧
    ∀ i, (kernel''.proctab i).pid = (kernel.proctab i).pid :=
  ⟨fun i => (done.letter i).trans (hands.letter i), fun i => (done.pid i).trans (hands.pid i)⟩

theorem Blocks.dispatched {kernel'' : Kernel} {letter : Letter} {value : Word}
    (blocks : Blocks kernel kernel' p letter) (done : Replies kernel' kernel'' p value) :
    Blocks kernel kernel'' p letter :=
  ⟨done.mem.trans blocks.mem, fun i => (done.letter i).trans (blocks.letter i),
    fun i => (done.pid i).trans (blocks.pid i)⟩

theorem Blocks.alive {letter : Letter} (blocks : Blocks kernel kernel' p letter)
    (notStopped : letter.state ≠ .stopped) (i : Slot) (alive : (kernel.proctab i).state ≠ .stopped) :
    (kernel'.proctab i).state ≠ .stopped := by
  apply letter_stopped (blocks.letter i)
  split
  · exact notStopped
  · exact alive

theorem Carries.handed (carries : Carries kernel order state) (state' : Channels)
    (letter : ∀ i, (kernel'.proctab i).letter =
      if i = p ∨ i = q then { (kernel.proctab i).letter with state := .ready }
      else (kernel.proctab i).letter)
    (pid : ∀ i, (kernel'.proctab i).pid = (kernel.proctab i).pid)
    (offers : ∀ offer ∈ state'.offers, offer ∈ state.offers ∧ offer.sender ≠ p ∧ offer.sender ≠ q)
    (wants : ∀ d, state'.wants d = if d = p ∨ d = q then none else state.wants d) :
    Carries kernel' (state'.offers.map (·.sender)) state' := by
  have live : ∀ i, (kernel.proctab i).state ≠ .stopped → (kernel'.proctab i).state ≠ .stopped := by
    intro i alive
    apply letter_stopped (letter i)
    split
    · simp
    · exact alive
  have kept : ∀ d, ∀ want ∈ state'.wants d, want ∈ state.wants d ∧ ¬ (d = p ∨ d = q) := by
    intro d want isWant
    rw [wants] at isWant
    split at isWant
    · cases isWant
    · rename_i other
      exact ⟨isWant, other⟩
  constructor
  · rfl
  · intro offer member
    exact live _ (carries.dest offer (offers offer member).1)
  · intro offer member
    obtain ⟨isOffer, notP, notQ⟩ := offers offer member
    rw [letter, if_neg (by simp [notP, notQ]), pid]
    exact carries.offers offer isOffer
  · intro d want isWant source isSource
    obtain ⟨alive, real⟩ := carries.source d want (kept d want isWant).1 source isSource
    exact ⟨live source alive, by rwa [pid]⟩
  · intro d want isWant
    obtain ⟨old, other⟩ := kept d want isWant
    rw [letter, if_neg other, carries.wants d want old]
    cases want.source <;> simp [sourcePid, pid]
  · intro d isNone blocked
    have state := congrArg Letter.state (letter d)
    rw [show (kernel'.proctab d).letter.state = .blockedRecv from blocked] at state
    split at state
    · cases state
    · rename_i other
      rw [wants, if_neg other] at isNone
      exact carries.free d isNone state.symm

theorem Carries.parked (carries : Carries kernel order state) (free : Free state p)
    {load : Word × Word} (live : (kernel.proctab dst).state ≠ .stopped)
    (blocks : Blocks kernel kernel' p
      ⟨.blockedSend, (kernel.proctab dst).pid, load.1, load.2⟩) :
    Carries kernel' (order ++ [p]) { state with offers := state.offers ++ [⟨p, dst, load⟩] } := by
  have alive := blocks.alive (by simp)
  constructor
  · rw [List.map_append, carries.order]
    rfl
  · intro offer member
    rcases List.mem_append.mp member with old | new
    · exact alive _ (carries.dest offer old)
    · rw [List.mem_singleton.mp new]
      exact alive dst live
  · intro offer member
    rw [blocks.letter, blocks.pid]
    rcases List.mem_append.mp member with old | new
    · rw [if_neg (free.other old)]
      exact carries.offers offer old
    · rw [List.mem_singleton.mp new, if_pos rfl]
  · intro d want isWant source isSource
    obtain ⟨living, real⟩ := carries.source d want isWant source isSource
    exact ⟨alive source living, by rwa [blocks.pid]⟩
  · intro d want isWant
    have other : d ≠ p := by
      rintro rfl
      have nothing := free.wants
      rw [show state.wants d = some want from isWant] at nothing
      cases nothing
    rw [blocks.letter, if_neg other, carries.wants d want isWant]
    cases want.source <;> simp [sourcePid, blocks.pid]
  · intro d isNone blocked
    have letter := congrArg Letter.state (blocks.letter d)
    rw [show (kernel'.proctab d).letter.state = .blockedRecv from blocked] at letter
    split at letter
    · cases letter
    · exact carries.free d isNone letter.symm

theorem Carries.registered {source : Option Slot} (room : Word × Word)
    (carries : Carries kernel order state) (free : Free state p)
    (addressable : ∀ q ∈ source, Addressable kernel q)
    (blocks : Blocks kernel kernel' p
      ⟨.blockedRecv, sourcePid kernel source, room.1, room.2⟩) :
    Carries kernel' order
      { state with wants := Function.update state.wants p (some ⟨source, room⟩) } := by
  have alive := blocks.alive (by simp)
  have cases' : ∀ d want, want ∈ Function.update state.wants p (some ⟨source, room⟩) d →
      d = p ∧ want = ⟨source, room⟩ ∨ d ≠ p ∧ want ∈ state.wants d := by
    intro d want isWant
    rw [Function.update_apply] at isWant
    split at isWant
    · rename_i isP
      exact Or.inl ⟨isP, (Option.some.inj isWant).symm⟩
    · rename_i other
      exact Or.inr ⟨other, isWant⟩
  constructor
  · exact carries.order
  · intro offer member
    exact alive _ (carries.dest offer member)
  · intro offer member
    rw [blocks.letter, blocks.pid, if_neg (free.other member)]
    exact carries.offers offer member
  · intro d want isWant q isSource
    rcases cases' d want isWant with ⟨_, rfl⟩ | ⟨_, old⟩
    · exact ⟨alive q (addressable q isSource).1, by
        rw [blocks.pid]
        exact (addressable q isSource).2⟩
    · obtain ⟨living, real⟩ := carries.source d want old q isSource
      exact ⟨alive q living, by rwa [blocks.pid]⟩
  · intro d want isWant
    rcases cases' d want isWant with ⟨rfl, rfl⟩ | ⟨other, old⟩
    · rw [blocks.letter, if_pos rfl]
      cases source <;> simp [sourcePid, blocks.pid]
    · rw [blocks.letter, if_neg other, carries.wants d want old]
      cases want.source <;> simp [sourcePid, blocks.pid]
  · intro d isNone blocked
    simp only [Function.update_apply] at isNone
    split at isNone
    · cases isNone
    · rename_i other
      have letter := congrArg Letter.state (blocks.letter d)
      rw [if_neg other] at letter
      exact carries.free d isNone (Eq.trans (Eq.symm letter) blocked)

theorem blockOrder_filter (keep : Slot → Bool) (blocks : Bool)
    (kept : ∀ q ∈ order, (kernel'.proctab q).state = .blockedSend ↔ keep q = true)
    (caller : (kernel'.proctab p).state = .blockedSend ↔ blocks = true) :
    blockOrder order kernel' p = order.filter keep ++ if blocks = true then [p] else [] := by
  have same : order.filter (fun q => (kernel'.proctab q).state = .blockedSend) =
      order.filter keep := by
    refine List.filter_congr fun q member => ?_
    rw [Bool.eq_iff_iff, decide_eq_true_iff]
    exact kept q member
  rw [blockOrder, same]
  simp only [caller]

theorem handed_state_iff {kernel'' : Kernel} (letter : ∀ i, (kernel''.proctab i).letter =
      if i = p ∨ i = q then { (kernel.proctab i).letter with state := .ready }
      else (kernel.proctab i).letter) (i : Slot) :
    (kernel''.proctab i).state = .blockedSend ↔
      (kernel.proctab i).state = .blockedSend ∧ ¬ (i = p ∨ i = q) := by
  rw [state_of_letter (letter i)]
  split
  · rename_i taken
    simp [taken]
  · rename_i other
    simp only [other, not_false_iff, and_true]
    rfl

theorem send_handshake {kernel'' : Kernel} {want : Want Slot (Word × Word)}
    {buffer buffer_len value : Word} (settled : Settled kernel p rq order)
    (carries : Carries kernel order state) (registered : Registered kernel dst)
    (isWant : state.wants dst = some want) (accepts : Accepts want.source p)
    (served : send kernel p dst buffer buffer_len = some (value, kernel'))
    (done : Replies kernel' kernel'' p value) :
    Carries kernel'' (blockOrder order kernel'' p)
        { state with wants := Function.update state.wants dst none } ∧
      Copies kernel kernel'' (some ⟨p, dst, (buffer, buffer_len), want.room⟩) := by
  have free := settled.free carries
  have delivers := (carries.delivers settled registered).mpr ⟨want, isWant, accepts⟩
  obtain ⟨taken, sent, hands⟩ := send_hands buffer buffer_len delivers
  rw [sent] at served
  cases served
  have letter := carries.wants dst want isWant
  have room : ((kernel.proctab dst).buffer, (kernel.proctab dst).buffer_len) = want.room :=
    buffer_of_letter letter
  rw [room] at hands
  obtain ⟨letters, pid⟩ := hands.dispatched done
  have blocked := handed_state_iff letters
  have notDst : ∀ offer ∈ state.offers, offer.sender ≠ dst := by
    rintro offer member rfl
    have isSender := state_of_letter (carries.offers offer member)
    rw [state_of_letter letter] at isSender
    cases isSender
  have order' : blockOrder order kernel'' p = state.offers.map (·.sender) := by
    rw [blockOrder_filter (fun _ => true) false, carries.order]
    · simp
    · intro q member
      obtain ⟨offer, isOffer, rfl⟩ := carries.offered member
      rw [blocked, state_of_letter (carries.offers offer isOffer)]
      simp [free.other isOffer, notDst offer isOffer]
    · rw [blocked]
      simp
  rw [order']
  refine ⟨carries.handed { state with wants := Function.update state.wants dst none } letters pid
    (fun offer member => ⟨member, free.other member, notDst offer member⟩) fun d => ?_, ?_⟩
  · simp only [Function.update_apply]
    by_cases isDst : d = dst
    · simp [isDst]
    · by_cases isP : d = p
      · subst isP
        simp [isDst, free.wants]
      · simp [isDst, isP]
  · have count : minLen buffer_len (kernel.proctab dst).buffer_len =
        minLen (buffer, buffer_len).2 want.room.2 := by rw [← room]
    exact (hands.copies done count).1

theorem receive_handshake {kernel'' : Kernel} {offer : Offer Slot (Word × Word)}
    {front back : List (Offer Slot (Word × Word))} {room : Word × Word} {value : Word}
    (settled : Settled kernel p rq order) (carries : Carries kernel order state)
    (sound : Sound state) (split : state.offers = front ++ offer :: back)
    (hands : Hands kernel kernel' offer.sender p offer.load room)
    (count : value = minLen offer.load.2 room.2) (done : Replies kernel' kernel'' p value) :
    Carries kernel'' (blockOrder order kernel'' p)
        { state with offers := state.offers.filter fun other => other.sender ≠ offer.sender } ∧
      Copies kernel kernel'' (some ⟨offer.sender, p, offer.load, room⟩) := by
  have free := settled.free carries
  have isOffer : offer ∈ state.offers := by simp [split]
  obtain ⟨letters, pid⟩ := hands.dispatched done
  have blocked := handed_state_iff letters
  have order' : blockOrder order kernel'' p =
      (state.offers.filter fun other => other.sender ≠ offer.sender).map (·.sender) := by
    rw [blockOrder_filter (fun q => q ≠ offer.sender) false, ← carries.order, List.filter_map]
    · simp [Function.comp_def]
    · intro q member
      obtain ⟨other, isOther, rfl⟩ := carries.offered member
      rw [blocked, state_of_letter (carries.offers other isOther)]
      simp [free.other isOther]
    · rw [blocked]
      simp
  rw [order']
  refine ⟨carries.handed { state with
    offers := state.offers.filter fun other => other.sender ≠ offer.sender } letters pid
    (fun other member => ?_) fun d => ?_, (hands.copies done count).2⟩
  · obtain ⟨isOther, notSender⟩ := List.mem_filter.mp member
    exact ⟨isOther, free.other isOther, of_decide_eq_true notSender⟩
  · by_cases isP : d = p
    · subst isP
      simp [free.wants]
    · by_cases isSender : d = offer.sender
      · subst isSender
        simp [sound.apart offer isOffer]
      · simp [isP, isSender]

theorem blocks_order {letter : Letter} (settled : Settled kernel p rq order)
    (blocks : Blocks kernel kernel' p letter) : blockOrder order kernel' p =
      order ++ if letter.state = .blockedSend then [p] else [] := by
  rw [blockOrder_filter (fun _ => true) (decide (letter.state = .blockedSend)),
    List.filter_eq_self.mpr (fun _ _ => rfl)]
  · simp
  · intro q member
    have other : q ≠ p := settled.other member
    have same := blocks.letter q
    rw [if_neg other] at same
    rw [state_of_letter same]
    exact iff_of_true ((settled.mail.blocked q).mp member) rfl
  · have caller := blocks.letter p
    rw [if_pos rfl] at caller
    rw [state_of_letter caller]
    simp

variable {d d' : Dispatcher} {call : MsgCall}

/-- A receive from one process names a number that does not stand for any process. -/
def NamesSource (kernel : Kernel) : MsgCall → Prop
  | .recv fromPcb _ _ => (kernel.proctab fromPcb).pid ≠ -1
  | .send _ _ _ | .recvAny _ _ _ => True

instance (kernel : Kernel) : (call : MsgCall) → Decidable (NamesSource kernel call)
  | .recv _ _ _ => inferInstanceAs (Decidable (_ ≠ _))
  | .send _ _ _ | .recvAny _ _ _ => isTrue trivial

def Exact (s : MsgRun) : MsgEvent → Prop
  | .call call => Allowed s (.call call) ∧ NamesSource s.kernel call
  | .yield => True

instance (s : MsgRun) : (event : MsgEvent) → Decidable (Exact s event)
  | .call _ => inferInstanceAs (Decidable (_ ∧ _))
  | .yield => isTrue trivial

theorem Exact.allowed {s : MsgRun} {event : MsgEvent} (guard : Exact s event) : Allowed s event := by
  cases event with
  | call call => exact guard.1
  | yield => trivial

theorem dispatchMsg_serves (settled : Settled d.kernel d.current rq order)
    (carries : Carries d.kernel order state) (sound : Sound state)
    (proper : Proper d.kernel d.current call) (fits : Fits d.kernel d.current call)
    (names : NamesSource d.kernel call) (stepped : dispatchMsg d call = some d') :
    Carries d'.kernel (blockOrder order d'.kernel d.current)
        (Handshake.serve state d.current call.handshake).1 ∧
      Copies d.kernel d'.kernel (Handshake.serve state d.current call.handshake).2 := by
  obtain ⟨value, kernel', served, done⟩ := dispatchMsg_replies stepped
  have free := settled.free carries
  rcases serve_cases state d.current call.handshake with
    ⟨dst, load, want, isCall, isWant, accepts, answer⟩ | ⟨dst, load, isCall, refused, answer⟩ |
    ⟨source, room, offer, front, back, isCall, split, isDest, accepts, others, answer⟩ |
    ⟨source, room, isCall, nobody, answer⟩
  · -- a send to a process that waits for it
    rw [answer]
    cases call with
    | recv | recvAny => cases isCall
    | send dst buffer buffer_len =>
        cases isCall
        exact send_handshake settled carries fits.1 isWant accepts served done
  · -- a send that blocks
    rw [answer]
    cases call with
    | recv | recvAny => cases isCall
    | send dst buffer buffer_len =>
        cases isCall
        have refused' : ¬ Delivers d.kernel d.current dst := by
          rw [carries.delivers settled fits.1]
          rintro ⟨want, isWant, accepts⟩
          exact refused want isWant accepts
        have blocks := (send_blocks refused' served).dispatched done
        rw [blocks_order settled blocks]
        exact ⟨carries.parked free (proper.1 dst rfl).2 blocks, blocks.mem⟩
  · -- a receive from a process that waits to send
    rw [answer]
    have isOffer : offer ∈ state.offers := by simp [split]
    have letter := carries.offers offer isOffer
    have load : ((d.kernel.proctab offer.sender).buffer,
        (d.kernel.proctab offer.sender).buffer_len) = offer.load := buffer_of_letter letter
    cases call with
    | send => cases isCall
    | recv q buffer buffer_len =>
        cases isCall
        have isSource : q = offer.sender := accepts q rfl
        subst isSource
        have waits := (carries.waits settled).mpr ⟨offer, isOffer, rfl, isDest⟩
        obtain ⟨count, hands⟩ := recv_hands waits served
        rw [load] at hands
        exact receive_handshake settled carries sound split hands (by rw [count, ← load]) done
    | recvAny from_pid buffer buffer_len =>
        cases isCall
        have head := carries.head settled split isDest fun other inFront toP =>
          others other inFront toP (by simp [Accepts])
        obtain ⟨count, hands⟩ := recvAny_hands from_pid head served
        rw [load] at hands
        exact receive_handshake settled carries sound split hands (by rw [count, ← load]) done
  · -- a receive that blocks
    rw [answer]
    cases call with
    | send => cases isCall
    | recv q buffer buffer_len =>
        cases isCall
        have refused : ¬ ((d.kernel.proctab q).state = .blockedSend ∧
            (d.kernel.proctab q).waitingPid = (d.kernel.proctab d.current).pid) := by
          rw [carries.waits settled]
          rintro ⟨offer, isOffer, rfl, isDest⟩
          exact nobody offer isOffer isDest (by simp [Accepts])
        have registers : recv d.kernel d.current q buffer buffer_len = _ := if_neg refused
        have same : some (value, kernel') = _ := served.symm.trans registers
        cases same
        have blocks := (awaiting_blocks d.kernel d.current (d.kernel.proctab q).pid buffer
          buffer_len).dispatched done
        rw [blocks_order settled blocks]
        refine ⟨?_, blocks.mem⟩
        have addressable : ∀ source ∈ some q, Addressable d.kernel source := by
          rintro source isSource
          cases isSource
          exact ⟨(proper.1 q rfl).2, names⟩
        simpa using carries.registered (buffer, buffer_len) free addressable blocks
    | recvAny from_pid buffer buffer_len =>
        cases isCall
        have head := carries.noHead settled fun offer isOffer isDest =>
          nobody offer isOffer isDest (by simp [Accepts])
        simp only [MsgCall.serve, recvAny, head] at served
        cases served
        have blocks := (awaiting_blocks d.kernel d.current (-1) buffer buffer_len).dispatched done
        rw [blocks_order settled blocks]
        refine ⟨?_, blocks.mem⟩
        have addressable : ∀ source ∈ (none : Option Slot), Addressable d.kernel source := by
          intro source isSource
          cases isSource
        simpa using carries.registered (buffer, buffer_len) free addressable blocks

theorem Carries.congr (carries : Carries kernel order state)
    (letter : ∀ i, (kernel'.proctab i).letter = (kernel.proctab i).letter)
    (pid : ∀ i, (kernel'.proctab i).pid = (kernel.proctab i).pid) :
    Carries kernel' order state := by
  have same : ∀ i, (kernel'.proctab i).state = (kernel.proctab i).state := fun i =>
    state_of_letter (letter i)
  constructor
  · exact carries.order
  · intro offer member
    rw [same]
    exact carries.dest offer member
  · intro offer member
    rw [letter, pid]
    exact carries.offers offer member
  · intro d want isWant q isSource
    rw [Addressable, same, pid]
    exact carries.source d want isWant q isSource
  · intro d want isWant
    rw [letter, carries.wants d want isWant]
    cases want.source <;> simp [sourcePid, pid]
  · intro d isNone
    rw [same]
    exact carries.free d isNone

theorem yields_same (settled : Settled d.kernel d.current rq order)
    (popped : reschedule (ready d.kernel d.current) = some d') :
    d'.kernel.mem = d.kernel.mem ∧
      (∀ i, (d'.kernel.proctab i).letter = (d.kernel.proctab i).letter) ∧
      ∀ i, (d'.kernel.proctab i).pid = (d.kernel.proctab i).pid := by
  have unlinked := reschedule_unlinked popped
  have mem := congrArg Kernel.mem unlinked
  refine ⟨Eq.trans mem (ready_mem _ _), fun i => ?_, fun i => ?_⟩
  · rw [unlinked_same unlinked Pcb.letter (fun _ => rfl) i, ready_letter]
    split
    · rename_i isP
      have running := settled.running
      rw [isP, Pcb.letter, running]
    · rfl
  · rw [unlinked_same unlinked (·.pid) (fun _ => rfl) i, ready_proctab]

end Step

/-! Runs of calls. -/

/-- What an event of a run is as a handshake: a yield is none. -/
def Means (s : MsgRun) : MsgEvent → Option MsgExchange → Prop
  | .yield, x => x = none
  | .call call, x => ∃ y ∈ x, y.caller = s.current ∧ y.call = call.handshake ∧
      ∀ s', msgStep s (.call call) = some s' → Copies s.kernel s'.kernel y.transfer

/-- The blocked processes of a run, as the parties of a handshake. -/
structure Corresponds (s : MsgRun) (state : Channels) : Prop where
  settled : ∃ rq, Settled s.kernel s.current rq s.order
  carries : Carries s.kernel s.order state
  sound : Sound state

theorem msgStep_corresponds {s s' : MsgRun} {event : MsgEvent} {state : Channels}
    (agrees : Corresponds s state) (guard : Exact s event)
    (stepped : msgStep s event = some s') :
    ∃ x state', Means s event x ∧ stutter play state x = some state' ∧ Corresponds s' state' := by
  obtain ⟨rq, settled⟩ := agrees.settled
  have settled' := msgStep_settled settled guard.allowed stepped
  obtain ⟨d, served, rfl⟩ := Option.map_eq_some_iff.mp stepped
  cases event with
  | yield =>
      obtain ⟨mem, letter, pid⟩ := yields_same settled served
      refine ⟨none, state, rfl, rfl, settled', ?_, agrees.sound⟩
      have order : blockOrder s.order d.kernel s.current = s.order := by
        rw [blockOrder_filter (fun _ => true) false, List.filter_eq_self.mpr (fun _ _ => rfl)]
        · simp
        · intro q member
          rw [state_of_letter (letter q)]
          exact iff_of_true ((settled.mail.blocked q).mp member) rfl
        · rw [state_of_letter (letter s.current)]
          exact iff_of_false (by
            rw [show (s.dispatcher.kernel.proctab s.current).letter.state = .ready from
              settled.running]
            decide) (by decide)
      change Carries d.kernel (blockOrder s.order d.kernel s.current) state
      rw [order]
      exact agrees.carries.congr letter pid
  | call call =>
      obtain ⟨carries, copies⟩ := dispatchMsg_serves settled agrees.carries agrees.sound
        guard.1.1 guard.1.2 guard.2 served
      have free := settled.free agrees.carries
      refine ⟨some ⟨s.current, call.handshake, (Handshake.serve state s.current call.handshake).2⟩,
        (Handshake.serve state s.current call.handshake).1, ?_, ?_, settled', carries,
        agrees.sound.serve free _⟩
      · refine ⟨_, rfl, rfl, rfl, fun s' stepped' => ?_⟩
        rw [stepped] at stepped'
        cases stepped'
        exact copies
      · exact if_pos ⟨free, rfl⟩

def unsent (kernel : Kernel) (i d : Slot) : List (Word × Word) :=
  if (kernel.proctab i).state = .blockedSend ∧
      (kernel.proctab i).waitingPid = (kernel.proctab d).pid then
    [((kernel.proctab i).buffer, (kernel.proctab i).buffer_len)]
  else []

def unfilled (kernel : Kernel) (d : Slot) : List (Word × Word) :=
  if (kernel.proctab d).state = .blockedRecv then
    [((kernel.proctab d).buffer, (kernel.proctab d).buffer_len)]
  else []

section Final

variable {kernel : Kernel} {order : List Slot} {state : Channels} {s : MsgRun}

theorem Carries.unsent (carries : Carries kernel order state) (sound : Sound state)
    (named : Named kernel) (i : Slot) {d : Slot} (live : (kernel.proctab d).state ≠ .stopped)
    (blocked : ∀ q, q ∈ order ↔ (kernel.proctab q).state = .blockedSend) :
    pending state i d = unsent kernel i d := by
  by_cases waits : i ∈ order
  · have isBlocked := (blocked i).mp waits
    obtain ⟨offer, isOffer, rfl⟩ := carries.offered waits
    obtain ⟨front, back, split⟩ := List.append_of_mem isOffer
    have letter := carries.offers offer isOffer
    have load : ((kernel.proctab offer.sender).buffer,
        (kernel.proctab offer.sender).buffer_len) = offer.load := buffer_of_letter letter
    have same : offer.dest = d ↔
        (kernel.proctab offer.sender).waitingPid = (kernel.proctab d).pid := by
      rw [waitingPid_of_letter letter]
      constructor
      · rintro rfl
        rfl
      · exact named.distinct _ _ (carries.dest offer isOffer) live
    have gone : pending { state with
        offers := state.offers.filter fun other => other.sender ≠ offer.sender } offer.sender d =
          [] := by
      rw [pending, List.filter_eq_nil_iff.mpr]
      · rfl
      · intro other member
        have notSender := of_decide_eq_true (List.mem_filter.mp member).2
        simp [notSender]
    rw [pending_taken sound split, gone, List.append_nil, XerosKernel.unsent]
    simp only [true_and, same, isBlocked, load]
  · have free : ∀ offer ∈ state.offers, offer.sender ≠ i := by
      rintro offer member rfl
      rw [← carries.order] at waits
      exact waits (List.mem_map_of_mem member)
    have notBlocked : (kernel.proctab i).state ≠ .blockedSend := fun isBlocked =>
      waits ((blocked i).mpr isBlocked)
    rw [pending, List.filter_eq_nil_iff.mpr, XerosKernel.unsent]
    · simp [notBlocked]
    · intro offer member
      simp [free offer member]

theorem Carries.unfilled (carries : Carries kernel order state) (d : Slot) :
    wanted state d = unfilled kernel d := by
  unfold wanted XerosKernel.unfilled
  cases wants : state.wants d with
  | none => rw [if_neg (carries.free d wants)]
  | some want =>
      have letter := carries.wants d want wants
      have room : ((kernel.proctab d).buffer, (kernel.proctab d).buffer_len) = want.room :=
        buffer_of_letter letter
      rw [if_pos (state_of_letter letter), room]

theorem Corresponds.unmatched (agrees : Corresponds s state) {i d : Slot}
    (live : (s.kernel.proctab d).state ≠ .stopped)
    (blocked : (s.kernel.proctab i).state = .blockedSend)
    (number : (s.kernel.proctab i).waitingPid = (s.kernel.proctab d).pid) :
    ¬ Expects s.kernel i d := by
  obtain ⟨rq, settled⟩ := agrees.settled
  have carries := agrees.carries
  obtain ⟨offer, isOffer, rfl⟩ := carries.offered ((settled.mail.blocked i).mpr blocked)
  have isDest : offer.dest = d := by
    rw [waitingPid_of_letter (carries.offers offer isOffer)] at number
    exact settled.named.distinct _ _ (carries.dest offer isOffer) live number
  rintro ⟨receives, source⟩
  cases wants : state.wants d with
  | none => exact carries.free d wants receives
  | some want =>
      apply agrees.sound.unmatched offer isOffer want (isDest ▸ wants)
      intro q isSource
      have isSome : want.source = some q := isSource
      obtain ⟨sourceLive, real⟩ := carries.source d want wants q isSource
      rw [waitingPid_of_letter (carries.wants d want wants), isSome] at source
      rcases source with same | any
      · exact settled.named.distinct _ _ sourceLive (by simp [blocked]) same
      · exact absurd any real

end Final

theorem Idle.corresponds {start : MsgRun} (idle : Idle start) :
    Corresponds start ⟨[], fun _ => none⟩ := by
  refine ⟨idle.settled, ?_, ⟨List.nodup_nil, by simp, by simp⟩⟩
  rw [idle.order]
  exact ⟨rfl, by simp, by simp, by simp, by simp, fun d _ => (idle.free d).2⟩

/-- Every run of exact calls from an idle state is a run of handshakes that copy the messages they
hand over. What a process sends to another one is handed over once and in the order in which it was
sent, but for the message with which it is blocked; each receive gets one message, but for the one
that blocks; and no process is blocked in a send to a process that would take the message. -/
theorem messages_exchanged {start s : MsgRun} {events : List MsgEvent} (idle : Idle start)
    (along : Along msgStep Exact start events) (reached : run msgStep start events = some s) :
    ∃ (labels : List (Option MsgExchange)) (state : Channels),
      Labelled msgStep Means start events labels ∧
      run (stutter play) ⟨[], fun _ => none⟩ labels = some state ∧
      Carries s.kernel s.order state ∧
      (∀ i d, (s.kernel.proctab d).state ≠ .stopped →
        labels.reduceOption.flatMap (sent i d) =
          labels.reduceOption.flatMap (handedOver i d) ++ unsent s.kernel i d) ∧
      (∀ d, labels.reduceOption.flatMap (asked d) =
        labels.reduceOption.flatMap (filled d) ++ unfilled s.kernel d) ∧
      ∀ i d, (s.kernel.proctab d).state ≠ .stopped →
        (s.kernel.proctab i).state = .blockedSend →
        (s.kernel.proctab i).waitingPid = (s.kernel.proctab d).pid → ¬ Expects s.kernel i d := by
  obtain ⟨labels, state, labelled, played, agrees, _⟩ :=
    run_labelled (fun _ _ _ _ agrees guard stepped => msgStep_corresponds agrees guard stepped)
      idle.corresponds along reached
  obtain ⟨sound, balance, answered⟩ :=
    run_exchanges idle.corresponds.sound (run_stutter.symm.trans played)
  obtain ⟨rq, settled⟩ := agrees.settled
  refine ⟨labels, state, labelled, played, agrees.carries, fun i d live => ?_, fun d => ?_,
    fun i d live blocked number => ?_⟩
  · rw [← agrees.carries.unsent sound settled.named i live settled.mail.blocked, ← balance i d]
    rfl
  · rw [← agrees.carries.unfilled d, ← answered d]
    rfl
  · exact agrees.unmatched live blocked number

theorem messages_exchanged_two : ∃ (start s : MsgRun) (labels : List (Option MsgExchange)),
    run msgStep start (senderRun ++ [.call (.recvAny 0 0x90000 4)]) = some s ∧
    Labelled msgStep Means start (senderRun ++ [.call (.recvAny 0 0x90000 4)]) labels ∧
    labels.reduceOption.flatMap (sent 1 3) =
      labels.reduceOption.flatMap (handedOver 1 3) ++ [(0x80000, 4)] := by
  obtain ⟨start, s, idle, along, reached, live, waits⟩ := msgRun_of_check Exact
    (senderRun ++ [.call (.recvAny 0 0x90000 4)])
    (fun s => (s.kernel.proctab 3).state ≠ .stopped ∧ unsent s.kernel 1 3 = [(0x80000, 4)])
    (by decide +kernel)
  obtain ⟨labels, _, labelled, _, _, balance, _⟩ := messages_exchanged idle along reached
  have between := balance 1 3 live
  rw [waits] at between
  exact ⟨start, s, labels, reached, labelled, between⟩

end XerosKernel
