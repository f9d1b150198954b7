import Mathlib.Data.Fintype.Card
import EthernetFirmware.BufferPool
import EthernetFirmware.InterCoreQueue
import EthernetFirmware.RingBuffers

/-!
# Transmit path of the TAP application

The transmit task reads frames from the TAP device, copies each into a
buffer of the pool and enqueues the address of the buffer. The remote
core dequeues a node, reads its buffer and frees it. Each operation on the
pool and on the queue is one step. A buffer passes from the pool to the
task, the queue, the remote core and back, and no field says who holds it.
-/

namespace EthernetFirmware.TapTransmit

open Function GuardedRuns RemoteConfig RingQueues InterCoreQueue BufferPool

/-- `sizeof(Bufpool_Buf)`: the pad keeps it a multiple of 128. -/
def bufSize : ℕ := 1536

/-- Where the pool of a number of buffers lies, and how many frames the
task transmits in a cycle. -/
structure Layout (n : ℕ) where
  /-- Physical base address of the mapped pools. -/
  bufpoolBaseAddr : U32
  /-- Offset of the first buffer. -/
  bufArrayOffset : U32
  /-- Frames in a wake-up cycle. -/
  maxTx : U32
  /-- The pool has no more buffers than its array. -/
  size_le : n ≤ numBuffers

/-- `virt_to_phy` of a buffer, cast to 32 bits. -/
def virtToPhy {n : ℕ} (c : Layout n) (i : ℕ) : U32 :=
  c.bufpoolBaseAddr + c.bufArrayOffset + BitVec.ofNat 32 (i * bufSize)

/-- Index of the buffer that `phy_to_virt` leads to. -/
def phyToVirt {n : ℕ} (c : Layout n) (phyAddr : U32) : ℕ :=
  (phyAddr - c.bufpoolBaseAddr - c.bufArrayOffset).toNat / bufSize

/-- A frame of the TAP device. -/
abbrev Frame := {bytes : List U8 // 0 < bytes.length ∧ bytes.length ≤ ethFrameSize}

/-- What the read of the TAP device returns. -/
inductive ReadResult where
  | frame (frame : Frame)
  | nothing
  | error

/-- The read's return value in the unsigned `frame_len`. -/
def frameLen : ReadResult → U32
  | .frame f => BitVec.ofNat 32 f.val.length
  | .nothing => 0#32
  | .error => BitVec.ofInt 32 (-1)

/-- What the read has left in `tap_buffer`. -/
def tapBuffer : ReadResult → List U8
  | .frame f => f.val
  | _ => []

/-- Where the transmit task is. -/
inductive TxTask (n : ℕ) where
  /-- At the next read. -/
  | ready
  /-- A buffer is filled and its node is to be enqueued. -/
  | filled (pDriverBuf : Fin n) (enqNode : IcqNode)
  /-- An assertion has failed while the task had the buffer. -/
  | aborted (pDriverBuf : Fin n)

/-- Where the remote core is. -/
inductive Remote where
  /-- At the next dequeue. -/
  | idle
  /-- A node is dequeued. -/
  | got (node : ℕ)
  /-- The buffer of the node is read. -/
  | read (buffer : ℕ)

/-- A frame with its length. -/
abbrev Sent := List U8 × U32

/-- Pool, queue, the two sides and what has passed through. -/
structure State (n : ℕ) where
  /-- The buffer pool. -/
  pool : Bufpool n
  /-- The transmit queue. -/
  queue : Icq
  /-- The transmit task. -/
  task : TxTask n
  /-- Frames transmitted in the current cycle. -/
  txFrameCount : U32
  /-- The remote core. -/
  remote : Remote
  /-- Frames read into a buffer, in order. -/
  sent : List Sent
  /-- Frames the remote core has read, in order. -/
  received : List Sent

variable {n : ℕ}

/-- Copy a frame into a buffer and populate the node. -/
def fill (c : Layout n) (s : State n) (i : Fin n) (r : ReadResult) : State n :=
  { s with
    pool := setPayload s.pool i (RingBuffers.put (s.pool.bufArray i).payload 0 (tapBuffer r))
      ((frameLen r).setWidth 16)
    task := .filled i ⟨virtToPhy c i.val,frameLen r,s.txFrameCount⟩
    sent := s.sent ++ [(tapBuffer r,frameLen r)] }

/-- `tx_task` up to the enqueue: read, take a buffer, check the length and
copy. A round that ends early sleeps and starts a new cycle. -/
def txRead (c : Layout n) (s : State n) (r : ReadResult) : State n :=
  match s.task with
  | .ready =>
    if s.txFrameCount < c.maxTx then
      if 0#32 < frameLen r then
        match getBuf s.pool with
        | (none,pool) => { s with pool := pool, txFrameCount := 0#32 }
        | (some i,pool) =>
          if (frameLen r).toNat ≤ ethFrameSize then fill c { s with pool := pool } i r
          else { s with pool := pool, task := .aborted i }
      else { s with txFrameCount := 0#32 }
    else { s with txFrameCount := 0#32 }
  | _ => s

/-- `tx_task` from the enqueue on. -/
def txEnqueue (s : State n) : State n :=
  match s.task with
  | .filled i node =>
    if (enq s.queue node).1 = icqReturnSuccess then
      { s with
        queue := (enq s.queue node).2
        task := .ready
        txFrameCount := s.txFrameCount + 1#32 }
    else { s with queue := (enq s.queue node).2, task := .aborted i }
  | _ => s

/-- The remote core dequeues a node. -/
def remoteDequeue (s : State n) : State n :=
  match s.remote with
  | .idle =>
    match deq s.queue with
    | (none,queue) => { s with queue := queue }
    | (some k,queue) => { s with queue := queue, remote := .got k }
  | _ => s

/-- Valid bytes of a buffer. -/
def validBytes (p : Bufpool n) (i : ℕ) : List U8 :=
  if h : i < n then
    RingBuffers.items (p.bufArray ⟨i,h⟩).payload 0 (p.bufArray ⟨i,h⟩).payloadLen.toNat
  else []

/-- The remote core reads the buffer of its node. -/
def remoteRead (c : Layout n) (s : State n) : State n :=
  match s.remote with
  | .got k =>
    let i := phyToVirt c (s.queue.nodeArray k).dataBuffer
    { s with
      remote := .read i
      received := s.received ++ [(validBytes s.pool i,(s.queue.nodeArray k).dataBufferLen)] }
  | _ => s

/-- The remote core frees the buffer. -/
def remoteFree (s : State n) : State n :=
  match s.remote with
  | .read i =>
    { s with
      remote := .idle
      pool := if h : i < n then freeBuf s.pool ⟨i,h⟩ else s.pool }
  | _ => s

/-- Steps of the two sides. -/
inductive Event where
  | read (result : ReadResult)
  | enqueue
  | remoteDequeue
  | remoteRead
  | remoteFree

/-- State after a step; a step that is not the side's next one does
nothing. -/
def step (c : Layout n) (s : State n) : Event → State n
  | .read r => txRead c s r
  | .enqueue => txEnqueue s
  | .remoteDequeue => remoteDequeue s
  | .remoteRead => remoteRead c s
  | .remoteFree => remoteFree s

/-- The initialised pool, an empty queue and both sides at their start. -/
def start (n : ℕ) (q : Created) : State n := ⟨init n,q.queue,.ready,0#32,.idle,[],[]⟩

/-- Buffers the transmit task has. -/
def taskHolds : TxTask n → List (Fin n)
  | .ready => []
  | .filled i _ => [i]
  | .aborted i => [i]

/-- Number of nodes between tail and head. -/
def nodeCount (q : Icq) : ℕ :=
  if q.tail.toNat ≤ q.head.toNat then q.head.toNat - q.tail.toNat
  else q.head.toNat + q.maxSize.toNat - q.tail.toNat

/-- Nodes between tail and head. -/
def queuedNodes (q : Icq) : List IcqNode :=
  List.ofFn fun k : Fin (nodeCount q) => q.nodeArray (place q.maxSize.toNat q.tail.toNat k.val)

/-- Buffers the remote core has. -/
def remoteHolds (c : Layout n) (q : Icq) : Remote → List ℕ
  | .idle => []
  | .got k => [phyToVirt c (q.nodeArray k).dataBuffer]
  | .read i => [i]

/-- Holders of buffers: the task, each node of the queue and the remote
core. -/
def holders (c : Layout n) (s : State n) : List ℕ :=
  (taskHolds s.task).map Fin.val ++
    (queuedNodes s.queue).map (fun node => phyToVirt c node.dataBuffer) ++
    remoteHolds c s.queue s.remote

/-- The buffers are conserved. -/
structure Conserved (c : Layout n) (s : State n) : Prop where
  /-- A buffer in use has exactly one holder, and a free one has none. -/
  held : ∀ i : Fin n,
    InUse (s.pool.bufArray i) ∧ (holders c s).count i.val = 1 ∨
      Free (s.pool.bufArray i) ∧ (holders c s).count i.val = 0
  /-- A buffer is refused exactly when all are in use. -/
  refused : (getBuf s.pool).1 = none ↔ ∀ i, InUse (s.pool.bufArray i)
  /-- The buffer given out is free. -/
  given : ∀ i, (getBuf s.pool).1 = some i → Free (s.pool.bufArray i)
  /-- The counts differ by the buffers in use. -/
  balance : s.pool.numBufGet - s.pool.numBufFree = BitVec.ofNat 32 (usedCount s.pool)
  /-- The remote core gets the frames in order, bytes and length. -/
  inOrder : s.received <+: s.sent
  /-- With a queue longer than the pool, no assertion of the task fails. -/
  asserts : n + 1 < s.queue.maxSize.toNat → ∀ i, s.task ≠ .aborted i

/-- An error of the read finds no free buffer where the assertions must
hold. -/
def ErrorFindsNoBuffer (c : Layout n) (s : State n) : Event → Prop
  | .read .error =>
    n + 1 < s.queue.maxSize.toNat → s.task = .ready → s.txFrameCount < c.maxTx →
      (getBuf s.pool).1 = none
  | _ => True

/-- A buffer and the frame in it. -/
abbrev Load (n : ℕ) := Fin n × List U8

/-- A frame as it is recorded. -/
def Load.sent (f : Load n) : Sent := (f.2,BitVec.ofNat 32 f.2.length)

/-- The buffer holds the frame, bytes and length. -/
def Loaded (b : BufpoolBuf) (bytes : List U8) : Prop :=
  b.payloadLen.toNat = bytes.length ∧ RingBuffers.items b.payload 0 bytes.length = bytes

/-- The node leads to the buffer, which holds the frame. -/
structure Carries (c : Layout n) (p : Bufpool n) (node : IcqNode) (f : Load n) : Prop where
  /-- The node has the buffer's address. -/
  address : node.dataBuffer = virtToPhy c f.1.val
  /-- The node has the frame's length. -/
  length : node.dataBufferLen = BitVec.ofNat 32 f.2.length
  /-- The buffer holds the frame. -/
  loaded : Loaded (p.bufArray f.1) f.2

/-- What the transmit task has, beside the frames the remote core may get:
`rest` is what it has read and not yet enqueued. -/
def TaskOk (c : Layout n) (p : Bufpool n) (rest : List Sent) : TxTask n → Prop
  | .ready => rest = []
  | .filled i node => ∃ bytes, rest = [Load.sent (i,bytes)] ∧ Carries c p node (i,bytes)
  | .aborted _ => True

/-- What the remote core has: `taken` is its buffer, and the frame in it is
not received yet while it is in `unread`. -/
def RemoteOk (c : Layout n) (p : Bufpool n) (q : Icq) (l : List IcqNode) (taken : List (Load n))
    (unread : List Sent) : Remote → Prop
  | .idle => taken = [] ∧ unread = []
  | .got k => ∃ x f, taken = [f] ∧ unread = [f.sent] ∧ Carries c p x f ∧
      Behind q.maxSize.toNat q.nodeArray q.tail.toNat l k x
  | .read i => ∃ f, taken = [f] ∧ unread = [] ∧ i = f.1.val

/-- Buffers by holder. -/
def owners (task : TxTask n) (flight taken : List (Load n)) : List (Fin n) :=
  taskHolds task ++ flight.map Prod.fst ++ taken.map Prod.fst

/-- A buffer in use has one owner, and a free one has none. -/
def Owned (p : Bufpool n) (own : List (Fin n)) : Prop :=
  ∀ i, InUse (p.bufArray i) ∧ own.count i = 1 ∨ Free (p.bufArray i) ∧ own.count i = 0

/-- The queue holds the nodes `l`, which carry the frames `flight`; the
remote core has `taken`. -/
structure InvAt (c : Layout n) (s : State n) (l : List IcqNode) (flight taken : List (Load n))
    (unread rest : List Sent) : Prop where
  /-- The queue holds the nodes. -/
  queue : Represents s.queue l
  /-- The nodes carry the frames. -/
  carries : List.Forall₂ (Carries c s.pool) l flight
  /-- The pool's own bookkeeping. -/
  pool : PoolOk s.pool
  /-- The transmit task's buffer. -/
  task : TaskOk c s.pool rest s.task
  /-- The remote core's buffer. -/
  remote : RemoteOk c s.pool s.queue l taken unread s.remote
  /-- A buffer in use has one owner, and a free one has none. -/
  owned : Owned s.pool (owners s.task flight taken)
  /-- Frames received, read by nobody, queued and held by the task. -/
  frames : s.sent = s.received ++ unread ++ flight.map Load.sent ++ rest
  /-- With a queue longer than the pool, no assertion has failed. -/
  asserts : n + 1 < s.queue.maxSize.toNat → ∀ i, s.task ≠ .aborted i

section Addresses

variable {c : Layout n} {p p' : Bufpool n} {node : IcqNode} {f : Load n} {q : Icq}
  {l : List IcqNode}

/-- The address of a buffer of the pool leads back to it. -/
theorem phyToVirt_virtToPhy (c : Layout n) (i : Fin n) :
    phyToVirt c (virtToPhy c i.val) = i.val := by
  have hi := i.isLt
  have hn := c.size_le
  unfold numBuffers at hn
  have hoff : virtToPhy c i.val - c.bufpoolBaseAddr - c.bufArrayOffset =
      BitVec.ofNat 32 (i.val * bufSize) := by
    unfold virtToPhy
    bv_omega
  unfold phyToVirt
  rw [hoff,BitVec.toNat_ofNat]
  unfold bufSize
  omega

theorem Carries.phyToVirt (h : Carries c p node f) :
    phyToVirt c node.dataBuffer = f.1.val := by
  rw [h.address]
  exact phyToVirt_virtToPhy c f.1

/-- Only the payload of the frame's buffer matters. -/
theorem Carries.of_loaded (h : Carries c p node f)
    (hp : Loaded (p.bufArray f.1) f.2 → Loaded (p'.bufArray f.1) f.2) : Carries c p' node f :=
  ⟨h.address,h.length,hp h.loaded⟩

/-- The nodes between tail and head are the queued ones. -/
theorem queuedNodes_eq (h : Represents q l) : queuedNodes q = l := by
  have hhead := h.head_eq
  rw [place_eq h.tail_lt h.length_lt] at hhead
  have hlen := h.length_lt
  have htail := h.tail_lt
  have hcount : nodeCount q = l.length := by
    unfold nodeCount
    split at hhead <;> split <;> omega
  apply List.ext_getElem?
  intro k
  unfold queuedNodes
  rw [List.getElem?_ofFn]
  split
  · next hk =>
    rw [hcount] at hk
    rw [List.getElem?_eq_getElem hk]
    exact congrArg some (h.queued k _ (List.getElem?_eq_getElem hk))
  · next hk => rw [List.getElem?_eq_none (by omega)]

/-- Nodes keep their frames when the payloads of their buffers stay. -/
theorem carries_keep {flight : List (Load n)} (h : List.Forall₂ (Carries c p) l flight)
    (hp : ∀ f ∈ flight, Loaded (p.bufArray f.1) f.2 → Loaded (p'.bufArray f.1) f.2) :
    List.Forall₂ (Carries c p') l flight := by
  induction h with
  | nil => exact .nil
  | cons hhead _ ih =>
    exact .cons (hhead.of_loaded (hp _ List.mem_cons_self))
      (ih fun f hf => hp f (List.mem_cons_of_mem _ hf))

/-- The nodes lead to the buffers of their frames. -/
theorem addresses_eq {flight : List (Load n)} (h : List.Forall₂ (Carries c p) l flight) :
    l.map (fun node => TapTransmit.phyToVirt c node.dataBuffer) =
      (flight.map Prod.fst).map Fin.val := by
  induction h with
  | nil => rfl
  | cons hhead _ ih => exact congrArg₂ List.cons hhead.phyToVirt ih

/-- The task keeps its frame when no payload changes. -/
theorem TaskOk.keep {rest : List Sent} {task : TxTask n} (h : TaskOk c p rest task)
    (hp : ∀ f : Load n, Loaded (p.bufArray f.1) f.2 → Loaded (p'.bufArray f.1) f.2) :
    TaskOk c p' rest task := by
  cases task with
  | ready => exact h
  | filled i node =>
    obtain ⟨bytes,hrest,hcarries⟩ := h
    exact ⟨bytes,hrest,hcarries.of_loaded (hp _)⟩
  | aborted i => trivial

/-- The remote core keeps its frame when the payload of its buffer stays. -/
theorem RemoteOk.keep {taken : List (Load n)} {unread : List Sent} {r : Remote}
    (h : RemoteOk c p q l taken unread r)
    (hp : ∀ f ∈ taken, Loaded (p.bufArray f.1) f.2 → Loaded (p'.bufArray f.1) f.2) :
    RemoteOk c p' q l taken unread r := by
  cases r with
  | idle => exact h
  | got k =>
    obtain ⟨x,f,rfl,hu,hcarries,hrest⟩ := h
    exact ⟨x,f,rfl,hu,hcarries.of_loaded (hp f List.mem_cons_self),hrest⟩
  | read i => exact h

end Addresses

section Ownership

variable {p : Bufpool n} {own own' : List (Fin n)} {i j : Fin n} {bytes : List U8}
  {payload : ℕ → U8} {payloadLen : U16}

theorem loaded_markUsed (h : Loaded (p.bufArray j) bytes) :
    Loaded ((markUsed p i).bufArray j) bytes := by
  by_cases hj : j = i
  · subst hj
    simpa [markUsed,Loaded] using h
  · simpa [markUsed,update_of_ne hj] using h

theorem loaded_freeBuf (h : Loaded (p.bufArray j) bytes) :
    Loaded ((freeBuf p i).bufArray j) bytes := by
  by_cases hj : j = i
  · subst hj
    simp only [freeBuf,update_self]
    unfold dropRef
    split
    · split <;> exact h
    · exact h
  · simpa [freeBuf,update_of_ne hj] using h

theorem bufArray_setPayload_of_ne (hj : j ≠ i) :
    (setPayload p i payload payloadLen).bufArray j = p.bufArray j := update_of_ne hj _ _

/-- A frame copied into a buffer is in it. -/
theorem loaded_setPayload (f : Frame) {old : ℕ → U8} :
    Loaded ((setPayload p i (RingBuffers.put old 0 f.val)
      ((frameLen (.frame f)).setWidth 16)).bufArray i) f.val := by
  have hlen : f.val.length ≤ 1518 := f.property.2
  simp only [setPayload,update_self]
  constructor
  · simp only [frameLen,BitVec.toNat_setWidth,BitVec.toNat_ofNat]
    omega
  · apply List.ext_getElem
    · simp [RingBuffers.items]
    · intro k hk hk'
      simp only [RingBuffers.items,List.getElem_ofFn]
      exact RingBuffers.put_add hk'

namespace Owned

theorem perm (h : Owned p own) (hp : own'.Perm own) : Owned p own' := by
  intro j
  rw [hp.count_eq]
  exact h j

theorem inUse_of_mem (h : Owned p own) (hi : i ∈ own) : InUse (p.bufArray i) := by
  have hcount := List.count_pos_iff.mpr hi
  rcases h i with hu | hf
  · exact hu.1
  · omega

theorem notMem_of_free (h : Owned p own) (hi : Free (p.bufArray i)) : i ∉ own :=
  fun hmem => (h.inUse_of_mem hmem).not_free hi

/-- No more buffers are owned than the pool has. -/
theorem length_le (h : Owned p own) : own.length ≤ n := by
  have hnodup : own.Nodup := List.nodup_iff_count_le_one.mpr fun i => by
    rcases h i with hu | hf <;> omega
  simpa using hnodup.length_le_card

/-- A free buffer gets an owner. -/
theorem markUsed (h : Owned p own) (hi : Free (p.bufArray i)) (hp : own'.Perm (i :: own)) :
    Owned (markUsed p i) own' := by
  intro j
  rw [hp.count_eq]
  by_cases hj : j = i
  · subst hj
    refine Or.inl ⟨by simp [BufferPool.markUsed,InUse],?_⟩
    rw [List.count_cons_self,List.count_eq_zero.mpr (h.notMem_of_free hi)]
  · rw [List.count_cons_of_ne (Ne.symm hj)]
    simp only [BufferPool.markUsed,update_of_ne hj]
    exact h j

/-- An owner gives its buffer back. -/
theorem freeBuf (h : Owned p own) (hp : own.Perm (i :: own')) : Owned (freeBuf p i) own' := by
  have hi : InUse (p.bufArray i) := h.inUse_of_mem (hp.mem_iff.mpr List.mem_cons_self)
  intro j
  have hj := h j
  rw [hp.count_eq] at hj
  by_cases heq : j = i
  · subst heq
    rw [List.count_cons_self] at hj
    refine Or.inr ⟨?_,?_⟩
    · simp only [BufferPool.freeBuf,update_self]
      exact PoolOk.dropRef_of_inUse hi
    · rcases hj with hu | hf <;> omega
  · rw [List.count_cons_of_ne (Ne.symm heq)] at hj
    simp only [BufferPool.freeBuf,update_of_ne heq]
    exact hj

/-- The payload of a buffer matters to no owner. -/
theorem setPayload (h : Owned p own) : Owned (setPayload p i payload payloadLen) own := by
  intro j
  by_cases hj : j = i
  · subst hj
    simp only [BufferPool.setPayload,update_self]
    exact h j
  · rw [bufArray_setPayload_of_ne hj]
    exact h j

end Owned

end Ownership

namespace InvAt

variable {c : Layout n} {s : State n} {l : List IcqNode} {flight taken : List (Load n)}
  {unread rest : List Sent} {i : Fin n} {x : IcqNode}

/-- The holders are the owners. -/
theorem holders_eq (h : InvAt c s l flight taken unread rest) :
    holders c s = (owners s.task flight taken).map Fin.val := by
  have hremote : remoteHolds c s.queue s.remote = (taken.map Prod.fst).map Fin.val := by
    have hr := h.remote
    cases hs : s.remote <;> rw [hs] at hr
    case idle =>
      rw [hr.1]
      rfl
    case got k =>
      obtain ⟨x,f,rfl,-,hcarries,hbehind⟩ := hr
      show [phyToVirt c (s.queue.nodeArray k).dataBuffer] = _
      rw [hbehind.front,hcarries.phyToVirt]
      rfl
    case read i =>
      obtain ⟨f,rfl,-,rfl⟩ := hr
      rfl
  unfold holders owners
  rw [queuedNodes_eq h.queue,addresses_eq h.carries,hremote,List.map_append,List.map_append]

theorem conserved (h : InvAt c s l flight taken unread rest) : Conserved c s where
  held := by
    intro i
    rw [h.holders_eq,List.count_map_of_injective _ _ Fin.val_injective]
    exact h.owned i
  refused := h.pool.getBuf_eq_none_iff
  given := fun _ => h.pool.getBuf_free
  balance := h.pool.balance
  inOrder := ⟨unread ++ flight.map Load.sent ++ rest,by rw [h.frames]; simp⟩
  asserts := h.asserts

/-- The cycle's counter and the count of refused searches matter to nothing
else. -/
theorem setCounts (h : InvAt c s l flight taken unread rest) (count err : U32) :
    InvAt c
      { s with pool := { s.pool with numBufGetErr := err }, txFrameCount := count }
      l flight taken unread rest :=
  ⟨h.queue,carries_keep h.carries fun _ _ hf => hf,
    ⟨h.pool.lastAlloc_le,h.pool.inUse_or_free,h.pool.balance⟩,
    h.task.keep fun _ hf => hf,h.remote.keep fun _ _ hf => hf,
    h.owned,h.frames,h.asserts⟩

theorem ne_of_flight (h : InvAt c s l flight taken unread rest) (hi : Free (s.pool.bufArray i))
    {f : Load n} (hf : f ∈ flight) : f.1 ≠ i := by
  rintro rfl
  refine h.owned.notMem_of_free hi ?_
  unfold owners
  simp only [List.mem_append]
  exact Or.inl (Or.inr (List.mem_map_of_mem hf))

theorem ne_of_taken (h : InvAt c s l flight taken unread rest) (hi : Free (s.pool.bufArray i))
    {f : Load n} (hf : f ∈ taken) : f.1 ≠ i := by
  rintro rfl
  refine h.owned.notMem_of_free hi ?_
  unfold owners
  simp only [List.mem_append]
  exact Or.inr (List.mem_map_of_mem hf)

/-- A frame is copied into a free buffer. -/
theorem fill (h : InvAt c s l flight taken unread []) (htask : s.task = .ready)
    (hi : Free (s.pool.bufArray i)) (f : Frame) :
    InvAt c (fill c { s with pool := markUsed s.pool i } i (.frame f)) l flight taken unread
      [Load.sent (i,f.val)] := by
  have hkeep : ∀ g : Load n, g.1 ≠ i → Loaded (s.pool.bufArray g.1) g.2 →
      Loaded ((TapTransmit.fill c { s with pool := markUsed s.pool i } i
        (.frame f)).pool.bufArray g.1) g.2 := by
    intro g hg hload
    simp only [TapTransmit.fill,bufArray_setPayload_of_ne hg]
    exact loaded_markUsed hload
  have howned := h.owned
  rw [htask] at howned
  refine ⟨h.queue,carries_keep h.carries fun g hg => hkeep g (h.ne_of_flight hi hg),
    (h.pool.markUsed hi).setPayload _ _,⟨f.val,rfl,rfl,rfl,loaded_setPayload f⟩,
    h.remote.keep fun g hg => hkeep g (h.ne_of_taken hi hg),
    (howned.markUsed hi (List.Perm.refl _)).setPayload,?_,?_⟩
  · simp only [TapTransmit.fill,h.frames,List.append_nil]
    rfl
  · intro _ j hj
    cases hj

/-- The length of a read error fails the assertion after a buffer is taken. -/
theorem abort (h : InvAt c s l flight taken unread []) (htask : s.task = .ready)
    (hi : Free (s.pool.bufArray i)) (hshort : ¬ n + 1 < s.queue.maxSize.toNat) :
    InvAt c { s with pool := markUsed s.pool i, task := .aborted i } l flight taken unread [] := by
  have howned := h.owned
  rw [htask] at howned
  exact ⟨h.queue,carries_keep h.carries fun _ _ hload => loaded_markUsed hload,
    h.pool.markUsed hi,trivial,h.remote.keep fun _ _ hload => loaded_markUsed hload,
    howned.markUsed hi (List.Perm.refl _),h.frames,fun hlong => absurd hlong hshort⟩

theorem rest_of_ready (h : InvAt c s l flight taken unread rest) (htask : s.task = .ready) :
    rest = [] := by
  have hr := h.task
  rw [htask] at hr
  exact hr

/-- A round of the task up to the enqueue. -/
theorem txRead (h : InvAt c s l flight taken unread rest) (r : ReadResult)
    (hg : ErrorFindsNoBuffer c s (.read r)) :
    ∃ rest', InvAt c (txRead c s r) l flight taken unread rest' := by
  have hwait : ∀ count err, InvAt c { s with
      pool := { s.pool with numBufGetErr := err }, task := s.task, txFrameCount := count }
      l flight taken unread rest := h.setCounts
  unfold TapTransmit.txRead
  cases htask : s.task with
  | filled i node => exact ⟨rest,h⟩
  | aborted i => exact ⟨rest,h⟩
  | ready =>
    rw [htask] at hwait
    obtain rfl := h.rest_of_ready htask
    simp only
    split
    · next hcount =>
      split
      · next hlen =>
        rcases h.pool.getBuf_cases with ⟨i,hi,hget⟩ | ⟨-,hget⟩
        · rw [hget]
          cases r with
          | nothing => exact absurd hlen (by decide)
          | error =>
            refine ⟨[],?_⟩
            have hfail : ¬ (frameLen .error).toNat ≤ ethFrameSize := by decide
            simp only [if_neg hfail]
            refine h.abort htask hi fun hlong => ?_
            have hnone := hg hlong htask hcount
            rw [hget] at hnone
            cases hnone
          | frame f =>
            have hfit : (frameLen (.frame f)).toNat ≤ ethFrameSize := by
              have hle := f.property.2
              unfold ethFrameSize at hle ⊢
              simp only [frameLen,BitVec.toNat_ofNat]
              omega
            simp only [if_pos hfit]
            exact ⟨_,h.fill htask hi f⟩
        · rw [hget]
          exact ⟨[],hwait _ _⟩
      · exact ⟨[],hwait _ s.pool.numBufGetErr⟩
    · exact ⟨[],hwait _ s.pool.numBufGetErr⟩

/-- The queue of a task that has a buffer has room when it is longer than
the pool. -/
theorem room_of_filled (h : InvAt c s l flight taken unread rest) {node : IcqNode}
    (htask : s.task = .filled i node) (hlong : n + 1 < s.queue.maxSize.toNat) :
    l.length + 1 < s.queue.maxSize.toNat := by
  have hlen := h.owned.length_le
  rw [htask] at hlen
  simp only [owners,taskHolds,List.length_append,List.length_map,List.length_singleton] at hlen
  have hsame := h.carries.length_eq
  omega

/-- A round of the task from the enqueue on. -/
theorem txEnqueue (h : InvAt c s l flight taken unread rest) :
    ∃ l' flight' rest', InvAt c (txEnqueue s) l' flight' taken unread rest' := by
  unfold TapTransmit.txEnqueue
  cases htask : s.task with
  | ready => exact ⟨l,flight,rest,h⟩
  | aborted i => exact ⟨l,flight,rest,h⟩
  | filled i node =>
    have hr := h.task
    have howned := h.owned
    rw [htask] at hr howned
    obtain ⟨bytes,rfl,hcarries⟩ := hr
    simp only
    by_cases hroom : l.length + 1 < s.queue.maxSize.toNat
    · obtain ⟨hstatus,hqueue⟩ := h.queue.enq_ok (x := node) hroom
      rw [if_pos hstatus]
      refine ⟨l ++ [node],flight ++ [(i,bytes)],[],hqueue,
        List.rel_append h.carries (.cons hcarries .nil),h.pool,rfl,?_,?_,?_,fun _ _ he => ?_⟩
      · have hremote := h.remote
        cases hrem : s.remote <;> rw [hrem] at hremote
        case idle => exact hremote
        case read j => exact hremote
        case got k =>
          obtain ⟨x,f,ht,hu,hx,hbehind⟩ := hremote
          refine ⟨x,f,ht,hu,hx,?_⟩
          rw [h.queue.enq_eq hroom]
          simp only [h.queue.head_eq]
          exact (hbehind.write hroom).push (update_self _ _ _)
      · refine howned.perm ?_
        simp only [owners,taskHolds,List.map_append,List.map_cons,List.map_nil,List.nil_append]
        exact List.perm_append_comm.append_right _
      · simp only [h.frames,List.map_append,List.map_cons,List.map_nil]
        simp
      · cases he
    · have hfull := h.queue.enq_full (x := node)
        (by have := h.queue.length_lt; omega)
      have hstatus : ¬ (enq s.queue node).1 = icqReturnSuccess := by
        rw [hfull]
        show ¬ icqErrQfull = icqReturnSuccess
        decide
      rw [if_neg hstatus,hfull]
      exact ⟨l,flight,_,h.queue,h.carries,h.pool,trivial,h.remote,howned,h.frames,
        fun hlong => absurd (h.room_of_filled htask hlong) hroom⟩

/-- The remote core dequeues a node. -/
theorem remoteDequeue (h : InvAt c s l flight taken unread rest) :
    ∃ l' flight' taken' unread', InvAt c (remoteDequeue s) l' flight' taken' unread' rest := by
  unfold TapTransmit.remoteDequeue
  cases hrem : s.remote with
  | got k => exact ⟨l,flight,taken,unread,h⟩
  | read i => exact ⟨l,flight,taken,unread,h⟩
  | idle =>
    have hremote := h.remote
    rw [hrem] at hremote
    obtain ⟨rfl,rfl⟩ := hremote
    simp only
    cases l with
    | nil =>
      rw [h.queue.deq_nil]
      refine ⟨[],flight,[],[],h.queue,h.carries,h.pool,h.task,⟨rfl,rfl⟩,h.owned,h.frames,
        h.asserts⟩
    | cons x l =>
      obtain ⟨hdeq,-,hqueue⟩ := h.queue.deq_cons
      obtain ⟨f,flight',hx,hrest,rfl⟩ := List.forall₂_cons_left_iff.mp h.carries
      rw [hdeq]
      refine ⟨l,flight',[f],[f.sent],hqueue,hrest,h.pool,h.task,?_,?_,?_,h.asserts⟩
      · refine ⟨x,f,rfl,rfl,hx,h.queue.tail_lt,?_,h.queue.queued⟩
        exact (toNat_increment h.queue.tail_lt).symm
      · refine h.owned.perm ?_
        simp only [owners,List.map_cons,List.map_nil,List.append_nil,List.append_assoc]
        exact (List.perm_append_singleton _ _).append_left _
      · rw [h.frames]
        simp

/-- The remote core reads exactly the frame of its buffer. -/
theorem remoteRead (h : InvAt c s l flight taken unread rest) :
    ∃ unread', InvAt c (remoteRead c s) l flight taken unread' rest := by
  unfold TapTransmit.remoteRead
  cases hrem : s.remote with
  | idle => exact ⟨unread,h⟩
  | read i => exact ⟨unread,h⟩
  | got k =>
    have hremote := h.remote
    rw [hrem] at hremote
    obtain ⟨x,f,rfl,rfl,hx,hbehind⟩ := hremote
    have hbytes : validBytes s.pool f.1.val = f.2 := by
      unfold validBytes
      rw [dif_pos f.1.isLt,hx.loaded.1]
      exact hx.loaded.2
    refine ⟨[],h.queue,h.carries,h.pool,h.task,⟨f,rfl,rfl,?_⟩,h.owned,?_,h.asserts⟩
    · rw [hbehind.front]
      exact hx.phyToVirt
    · simp only [hbehind.front,hx.phyToVirt,hbytes,hx.length,h.frames]
      simp [Load.sent]

/-- The remote core frees the buffer it has read. -/
theorem remoteFree (h : InvAt c s l flight taken unread rest) :
    ∃ taken', InvAt c (remoteFree s) l flight taken' unread rest := by
  unfold TapTransmit.remoteFree
  cases hrem : s.remote with
  | idle => exact ⟨taken,h⟩
  | got k => exact ⟨taken,h⟩
  | read i =>
    have hremote := h.remote
    rw [hrem] at hremote
    obtain ⟨f,rfl,rfl,rfl⟩ := hremote
    have hmem : f.1 ∈ owners s.task flight [f] := by
      unfold owners
      simp
    have hperm : (owners s.task flight [f]).Perm (f.1 :: owners s.task flight []) := by
      simp only [owners,List.map_cons,List.map_nil,List.append_nil]
      exact List.perm_append_singleton _ _
    simp only [dif_pos f.1.isLt]
    exact ⟨[],h.queue,carries_keep h.carries fun _ _ hload => loaded_freeBuf hload,
      h.pool.freeBuf (h.owned.inUse_of_mem hmem),
      h.task.keep fun _ hload => loaded_freeBuf hload,⟨rfl,rfl⟩,h.owned.freeBuf hperm,h.frames,
      h.asserts⟩

end InvAt

/-- Some queue, frames and holders fit the state. -/
def Inv (c : Layout n) (s : State n) : Prop :=
  ∃ l flight taken unread rest, InvAt c s l flight taken unread rest

theorem inv_start (c : Layout n) (q : Created) : Inv c (start n q) :=
  ⟨[],[],[],[],[],q.represents.2,.nil,poolOk_init n,rfl,⟨rfl,rfl⟩,
    fun _ => Or.inr ⟨⟨rfl,rfl⟩,rfl⟩,rfl,fun _ _ h => by cases h⟩

/-- A step keeps the invariant unless an error of the read finds a free
buffer where the assertions must hold. -/
theorem inv_step {c : Layout n} {s : State n} {e : Event} (h : Inv c s)
    (hg : ErrorFindsNoBuffer c s e) : Inv c (step c s e) := by
  obtain ⟨l,flight,taken,unread,rest,h⟩ := h
  cases e with
  | read r =>
    obtain ⟨rest',h'⟩ := h.txRead r hg
    exact ⟨l,flight,taken,unread,rest',h'⟩
  | enqueue =>
    obtain ⟨l',flight',rest',h'⟩ := h.txEnqueue
    exact ⟨l',flight',taken,unread,rest',h'⟩
  | remoteDequeue =>
    obtain ⟨l',flight',taken',unread',h'⟩ := h.remoteDequeue
    exact ⟨l',flight',taken',unread',rest,h'⟩
  | remoteRead =>
    obtain ⟨unread',h'⟩ := h.remoteRead
    exact ⟨l,flight,taken,unread',rest,h'⟩
  | remoteFree =>
    obtain ⟨taken',h'⟩ := h.remoteFree
    exact ⟨l,flight,taken',unread,rest,h'⟩

theorem conserved_of_inv {c : Layout n} {s : State n} (h : Inv c s) : Conserved c s := by
  obtain ⟨l,flight,taken,unread,rest,h⟩ := h
  exact h.conserved

/-- A step conserves the buffers exactly when no error of the read finds a
free buffer where the assertions must hold. -/
theorem step_exact {c : Layout n} {s : State n} {e : Event} (h : Inv c s) :
    Conserved c (step c s e) ↔ ErrorFindsNoBuffer c s e := by
  constructor
  · intro hcons
    rcases e with ((f | _) | _) | _ | _ | _ | _
    all_goals try trivial
    intro hlong htask hcount
    obtain ⟨l,flight,taken,unread,rest,h⟩ := h
    rcases h.pool.getBuf_cases with ⟨i,hi,hget⟩ | ⟨-,hget⟩
    · have hfail : ¬ (frameLen .error).toNat ≤ ethFrameSize := by decide
      have hpos : 0#32 < frameLen .error := by decide
      have hstep : step c s (.read .error) =
          { s with pool := markUsed s.pool i, task := .aborted i } := by
        simp only [step,TapTransmit.txRead,htask,if_pos hcount,if_pos hpos,hget,if_neg hfail]
      have hasserts := hcons.asserts
      rw [hstep] at hasserts
      exact absurd rfl (hasserts hlong i)
    · rw [hget]
  · exact fun hg => conserved_of_inv (inv_step h hg)

/-- From the initialised pool and every empty queue, and over every
interleaving, the buffers are conserved exactly when no error of the read
finds a free buffer where the assertions must hold. -/
theorem conserved_iff (c : Layout n) (q : Created) (events : List Event) :
    Along (step c) (Conserved c) (start n q) events ↔
      Guarded (step c) (ErrorFindsNoBuffer c) (start n q) events :=
  along_iff_guarded (fun _ h => conserved_of_inv h) (fun _ _ h hg => inv_step h hg)
    (fun _ _ h => step_exact h) (inv_start c q)

/-- One buffer at address zero. -/
def oneBuffer : Layout 1 := ⟨0#32,0#32,8#32,by decide⟩

/-- A queue of four nodes. -/
def fourNodes : Created := ⟨4#32,0#32,fun _ => ⟨0#32,0#32,0#32⟩,by decide,by decide⟩

/-- A read that returns -1 takes a buffer and fails the length assertion. -/
theorem read_error_fails_assertion :
    ¬ Along (step oneBuffer) (Conserved oneBuffer) (start 1 fourNodes) [.read .error] := by
  intro h
  have hasserts := h.2.asserts
  exact hasserts (by decide) 0 (by rfl)

end EthernetFirmware.TapTransmit
