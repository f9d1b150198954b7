import EthernetFirmware.InterCoreQueue

/-!
# Inter-core queue without synchronisation

One producer and one consumer work on the queue at the same time. Every
load and every store of the head, the tail and the node fields is one
step, in the order of the source; an increment stores its result before
it is compared with the size, so an index can be seen at the size for one
step. Locals are registers of the two programs. An element counts as
accepted when the head has moved past its node and as delivered when the
call that took it returns.
-/

namespace EthernetFirmware.InterCoreQueueSteps

open Function GuardedRuns RemoteConfig RingQueues InterCoreQueue

/-- Fields of a node in the order in which they are stored. -/
inductive Field where
  | dataBuffer
  | dataBufferLen
  | packetId

/-- Store one field of an element in a node. -/
def Field.store (pNode node : IcqNode) : Field → IcqNode
  | .dataBuffer => { node with dataBuffer := pNode.dataBuffer }
  | .dataBufferLen => { node with dataBufferLen := pNode.dataBufferLen }
  | .packetId => { node with packetId := pNode.packetId }

/-- Where the producer is in `IcQueue_enq`, with its locals. -/
inductive Producer where
  /-- Between two calls. -/
  | idle
  /-- `IcQueue_isQFull` loads the head. -/
  | enqHead (pNode : IcqNode)
  /-- `IcQueue_isQFull` loads the tail and compares it with the next head. -/
  | enqTail (pNode : IcqNode) (head : U32)
  /-- The head is loaded to store a field. -/
  | slot (pNode : IcqNode) (field : Field)
  /-- A field is stored. -/
  | field (pNode : IcqNode) (field : Field) (index : U32)
  /-- `IcQueue_isQFull` of `IcQueue_moveHead` loads the head. -/
  | fullHead (pNode : IcqNode)
  /-- `IcQueue_isQFull` of `IcQueue_moveHead` loads the tail. -/
  | fullTail (pNode : IcqNode) (head : U32)
  /-- The tail of a full queue is loaded. -/
  | dropLoad (pNode : IcqNode)
  /-- The tail of a full queue is stored after its increment. -/
  | dropStore (pNode : IcqNode) (tail : U32)
  /-- The tail of a full queue is stored as zero. -/
  | dropWrap (pNode : IcqNode)
  /-- The head is loaded for its increment. -/
  | moveLoad (pNode : IcqNode)
  /-- The head is stored after its increment. -/
  | moveStore (pNode : IcqNode) (head : U32)
  /-- The head is stored as zero. -/
  | moveWrap

/-- Where the consumer is in `IcQueue_deq`, with its locals. -/
inductive Consumer where
  /-- Between two calls, with the node the last call has returned. -/
  | idle (node : Option U32)
  /-- `IcQueue_isQFull` of `IcQueue_isQEmpty` loads the head. -/
  | fullHead
  /-- `IcQueue_isQFull` of `IcQueue_isQEmpty` loads the tail. -/
  | fullTail (head : U32)
  /-- `IcQueue_isQEmpty` loads the head. -/
  | emptyHead
  /-- `IcQueue_isQEmpty` loads the tail and compares it with the head. -/
  | emptyTail (head : U32)
  /-- The tail is loaded for the node. -/
  | take
  /-- The tail is loaded for its increment. -/
  | moveLoad (node : U32)
  /-- The tail is stored after its increment. -/
  | moveStore (node tail : U32)
  /-- The tail is stored as zero. -/
  | moveWrap (node : U32)

/-- The shared queue, the two programs and what has passed through. -/
structure State where
  /-- The queue in shared memory. -/
  queue : Icq
  /-- The program that calls `IcQueue_enq`. -/
  producer : Producer
  /-- The program that calls `IcQueue_deq`. -/
  consumer : Consumer
  /-- Elements the queue has accepted, in order. -/
  accepted : List IcqNode
  /-- Elements the consumer has got, in order. -/
  delivered : List IcqNode

/-- Shared memory with another head. -/
def State.setHead (s : State) (head : U32) : State :=
  { s with queue := { s.queue with head := head } }

/-- Shared memory with another tail. -/
def State.setTail (s : State) (tail : U32) : State :=
  { s with queue := { s.queue with tail := tail } }

/-- Shared memory with another node. -/
def State.setNode (s : State) (index : U32) (node : IcqNode) : State :=
  { s with queue := { s.queue with nodeArray := update s.queue.nodeArray index.toNat node } }

/-- What follows the store of a field. -/
def afterField (pNode : IcqNode) : Field → Producer
  | .dataBuffer => .slot pNode .dataBufferLen
  | .dataBufferLen => .slot pNode .packetId
  | .packetId => .fullHead pNode

/-- The next load or store of the producer. -/
def producerStep (s : State) : State :=
  match s.producer with
  | .idle => s
  | .enqHead x => { s with producer := .enqTail x (increment s.queue.maxSize s.queue.head) }
  | .enqTail x head =>
    -- A full queue ends the call with an error.
    { s with producer := if head = s.queue.tail then .idle else .slot x .dataBuffer }
  | .slot x field => { s with producer := .field x field s.queue.head }
  | .field x field index =>
    { s.setNode index (field.store x (s.queue.nodeArray index.toNat)) with
      producer := afterField x field }
  | .fullHead x => { s with producer := .fullTail x (increment s.queue.maxSize s.queue.head) }
  | .fullTail x head =>
    { s with producer := if head = s.queue.tail then .dropLoad x else .moveLoad x }
  | .dropLoad x => { s with producer := .dropStore x s.queue.tail }
  | .dropStore x tail =>
    { s.setTail (tail + 1#32) with
      producer := if tail + 1#32 = s.queue.maxSize then .dropWrap x else .moveLoad x }
  | .dropWrap x => { s.setTail 0#32 with producer := .moveLoad x }
  | .moveLoad x => { s with producer := .moveStore x s.queue.head }
  | .moveStore x head =>
    { s.setHead (head + 1#32) with
      accepted := s.accepted ++ [x]
      producer := if head + 1#32 = s.queue.maxSize then .moveWrap else .idle }
  | .moveWrap => { s.setHead 0#32 with producer := .idle }

/-- `IcQueue_deq` returns a node. -/
def State.deliver (s : State) (node : U32) : State :=
  { s with
    consumer := .idle (some node)
    delivered := s.delivered ++ [s.queue.nodeArray node.toNat] }

/-- The next load or store of the consumer. -/
def consumerStep (s : State) : State :=
  match s.consumer with
  | .idle _ => s
  | .fullHead => { s with consumer := .fullTail (increment s.queue.maxSize s.queue.head) }
  | .fullTail head =>
    { s with consumer := if head = s.queue.tail then .take else .emptyHead }
  | .emptyHead => { s with consumer := .emptyTail s.queue.head }
  | .emptyTail head =>
    { s with consumer := if head = s.queue.tail then .idle none else .take }
  | .take => { s with consumer := .moveLoad s.queue.tail }
  | .moveLoad node => { s with consumer := .moveStore node s.queue.tail }
  | .moveStore node tail =>
    if tail + 1#32 = s.queue.maxSize then
      { s.setTail (tail + 1#32) with consumer := .moveWrap node }
    else (s.setTail (tail + 1#32)).deliver node
  | .moveWrap node => (s.setTail 0#32).deliver node

/-- A call begins, or one of the programs goes on. -/
inductive Event where
  /-- The producer calls `IcQueue_enq`. -/
  | enq (pNode : IcqNode)
  /-- The consumer calls `IcQueue_deq`. -/
  | deq
  /-- The producer takes a step. -/
  | producer
  /-- The consumer takes a step. -/
  | consumer

/-- State after an event. A call begins only between two calls. -/
def step (s : State) : Event → State
  | .enq pNode =>
    match s.producer with
    | .idle => { s with producer := .enqHead pNode }
    | _ => s
  | .deq =>
    match s.consumer with
    | .idle _ => { s with consumer := .fullHead }
    | _ => s
  | .producer => producerStep s
  | .consumer => consumerStep s

/-- The created queue between two idle programs. -/
def start (c : Created) : State := ⟨c.queue,.idle,.idle none,[],[]⟩

/-- What the consumer has got is a first part of what was accepted, and the
node it was returned last still holds the element. -/
structure InOrder (s : State) : Prop where
  /-- Nothing is lost, doubled or out of order. -/
  isPrefix : s.delivered <+: s.accepted
  /-- The returned node keeps its content. -/
  kept : ∀ node, s.consumer = .idle (some node) →
    s.delivered.getLast? = some (s.queue.nodeArray node.toNat)

/-- The tests read settled indices. The full test of `IcQueue_enq` does not
see the tail at the size while the next head is zero, and the empty test
does not see the head at the size where it would pass for an element. -/
def Settled (s : State) : Event → Prop
  | .producer =>
    match s.producer with
    | .enqTail _ head => head = 0#32 → s.queue.tail ≠ s.queue.maxSize
    | _ => True
  | .consumer =>
    match s.consumer with
    | .fullHead =>
      s.queue.head = s.queue.maxSize → increment s.queue.maxSize s.queue.head ≠ s.queue.tail
    | .emptyHead => s.queue.head = s.queue.maxSize → s.queue.tail ≠ 0#32
    | _ => True
  | _ => True

instance (s : State) : (e : Event) → Decidable (Settled s e)
  | .enq _ => isTrue trivial
  | .deq => isTrue trivial
  | .producer => by
    unfold Settled
    cases s.producer <;> infer_instance
  | .consumer => by
    unfold Settled
    cases s.consumer <;> infer_instance

/-- Fields stored before the given one are those of the element. -/
def Stored (pNode node : IcqNode) : Field → Prop
  | .dataBuffer => True
  | .dataBufferLen => node.dataBuffer = pNode.dataBuffer
  | .packetId => node.dataBuffer = pNode.dataBuffer ∧ node.dataBufferLen = pNode.dataBufferLen

/-- The head variable, where the queue ends at position `h`. -/
def HeadOk (n h : ℕ) (head : U32) : Producer → Prop
  | .moveWrap => head.toNat = n ∧ h = 0
  | _ => head.toNat = h

/-- The tail variable, where the queue starts at position `t`. -/
def TailOk (n t : ℕ) (tail : U32) : Consumer → Prop
  | .moveWrap _ => tail.toNat = n ∧ t = 0
  | _ => tail.toNat = t

/-- What the producer has found out about a queue of `len` elements that
ends at position `h`, and the node there. -/
def ProducerOk (n h len : ℕ) (node : IcqNode) : Producer → Prop
  | .idle | .enqHead _ | .moveWrap => True
  | .enqTail _ head => head.toNat = following n h
  | .slot x field => len + 1 < n ∧ Stored x node field
  | .field x field index => len + 1 < n ∧ Stored x node field ∧ index.toNat = h
  | .fullHead x => len + 1 < n ∧ node = x
  | .fullTail x head => len + 1 < n ∧ node = x ∧ head.toNat = following n h
  | .dropLoad _ | .dropStore _ _ | .dropWrap _ => False
  | .moveLoad x => len + 1 < n ∧ node = x
  | .moveStore x head => len + 1 < n ∧ node = x ∧ head.toNat = h

/-- What the consumer has found out about the queue, and how the elements
accepted, delivered and queued go together. -/
def ConsumerOk (n : ℕ) (nodes : ℕ → IcqNode) (t : ℕ) (l accepted delivered : List IcqNode) :
    Consumer → Prop
  | .idle none | .fullHead | .emptyHead => accepted = delivered ++ l
  | .idle (some node) =>
    accepted = delivered ++ l ∧
      ∃ x, delivered.getLast? = some x ∧ Behind n nodes t l node.toNat x
  | .fullTail head => accepted = delivered ++ l ∧ (head.toNat = t → l ≠ [])
  | .emptyTail head => accepted = delivered ++ l ∧ (head.toNat ≠ t → l ≠ [])
  | .take => accepted = delivered ++ l ∧ l ≠ []
  | .moveLoad node => accepted = delivered ++ l ∧ l ≠ [] ∧ node.toNat = t
  | .moveStore node tail =>
    accepted = delivered ++ l ∧ l ≠ [] ∧ node.toNat = t ∧ tail.toNat = t
  | .moveWrap node => ∃ x, accepted = delivered ++ x :: l ∧ Behind n nodes t l node.toNat x

/-- The queue holds `l` from position `t` on, and both programs know what
they need. -/
structure InvAt (s : State) (t : ℕ) (l : List IcqNode) : Prop where
  /-- The queue has a node beside the unused one. -/
  two_le : 2 ≤ s.queue.maxSize.toNat
  /-- The start is a position of the queue. -/
  start_lt : t < s.queue.maxSize.toNat
  /-- One node stays unused. -/
  length_lt : l.length < s.queue.maxSize.toNat
  /-- The elements lie in their places. -/
  queued : Queued s.queue.maxSize.toNat s.queue.nodeArray t l
  /-- The head is where the queue ends. -/
  head : HeadOk s.queue.maxSize.toNat (place s.queue.maxSize.toNat t l.length) s.queue.head
    s.producer
  /-- The tail is where the queue starts. -/
  tail : TailOk s.queue.maxSize.toNat t s.queue.tail s.consumer
  /-- What the producer has found out. -/
  producer : ProducerOk s.queue.maxSize.toNat (place s.queue.maxSize.toNat t l.length) l.length
    (s.queue.nodeArray (place s.queue.maxSize.toNat t l.length)) s.producer
  /-- What the consumer has found out. -/
  consumer : ConsumerOk s.queue.maxSize.toNat s.queue.nodeArray t l s.accepted s.delivered
    s.consumer

variable {s : State} {t n k : ℕ} {l accepted delivered : List IcqNode} {x y : IcqNode}
  {nodes : ℕ → IcqNode} {index : U32}

theorem ConsumerOk.write {c : Consumer} (h : ConsumerOk n nodes t l accepted delivered c)
    (hroom : l.length + 1 < n) :
    ConsumerOk n (update nodes (place n t l.length) y) t l accepted delivered c := by
  cases c with
  | idle node =>
    cases node with
    | none => exact h
    | some node =>
      obtain ⟨hacc,x,hx,hb⟩ := h
      exact ⟨hacc,x,hx,hb.write hroom⟩
  | moveWrap node =>
    obtain ⟨x,hacc,hb⟩ := h
    exact ⟨x,hacc,hb.write hroom⟩
  | _ => exact h

theorem ConsumerOk.push {c : Consumer} (h : ConsumerOk n nodes t l accepted delivered c)
    (hy : nodes (place n t l.length) = y) :
    ConsumerOk n nodes t (l ++ [y]) (accepted ++ [y]) delivered c := by
  have hjoin : accepted = delivered ++ l → accepted ++ [y] = delivered ++ (l ++ [y]) := by
    rintro rfl
    exact List.append_assoc _ _ _
  cases c with
  | idle node =>
    cases node with
    | none => exact hjoin h
    | some node =>
      obtain ⟨hacc,x,hx,hb⟩ := h
      exact ⟨hjoin hacc,x,hx,hb.push hy⟩
  | fullHead => exact hjoin h
  | fullTail head => exact ⟨hjoin h.1,fun _ => by simp⟩
  | emptyHead => exact hjoin h
  | emptyTail head => exact ⟨hjoin h.1,fun _ => by simp⟩
  | take => exact ⟨hjoin h.1,by simp⟩
  | moveLoad node => exact ⟨hjoin h.1,by simp,h.2.2⟩
  | moveStore node tail => exact ⟨hjoin h.1,by simp,h.2.2⟩
  | moveWrap node =>
    obtain ⟨x,rfl,hb⟩ := h
    exact ⟨x,by simp,hb.push hy⟩

/-- The producer knows no less about a shorter queue with the same end. -/
theorem ProducerOk.shorter {p : Producer} {h len len' : ℕ} (hp : ProducerOk n h len y p)
    (hlen : len' ≤ len) : ProducerOk n h len' y p := by
  cases p <;> simp only [ProducerOk] at hp ⊢ <;> first | exact hp | (refine ⟨?_,hp.2⟩; omega)

namespace InvAt

/-- A step of the producer that changes its program alone. -/
theorem setProducer (h : InvAt s t l) {p : Producer}
    (hhead : HeadOk s.queue.maxSize.toNat (place s.queue.maxSize.toNat t l.length) s.queue.head p)
    (hp : ProducerOk s.queue.maxSize.toNat (place s.queue.maxSize.toNat t l.length) l.length
      (s.queue.nodeArray (place s.queue.maxSize.toNat t l.length)) p) :
    InvAt { s with producer := p } t l :=
  { h with head := hhead, producer := hp }

/-- A step of the consumer that changes its program alone. -/
theorem setConsumer (h : InvAt s t l) {c : Consumer}
    (htail : TailOk s.queue.maxSize.toNat t s.queue.tail c)
    (hc : ConsumerOk s.queue.maxSize.toNat s.queue.nodeArray t l s.accepted s.delivered c) :
    InvAt { s with consumer := c } t l :=
  { h with tail := htail, consumer := hc }

theorem end_lt (h : InvAt s t l) :
    place s.queue.maxSize.toNat t l.length < s.queue.maxSize.toNat :=
  place_lt (by have := h.two_le; omega)

/-- The end is followed by the start exactly in the full state. -/
theorem following_end_eq_iff (h : InvAt s t l) :
    following s.queue.maxSize.toNat (place s.queue.maxSize.toNat t l.length) = t ↔
      l.length + 1 = s.queue.maxSize.toNat := by
  have hlen := h.length_lt
  rw [following_place (by have := h.two_le; omega)]
  by_cases hfull : l.length + 1 = s.queue.maxSize.toNat
  · rw [hfull,place_full h.start_lt]
    simp
  · rw [place_eq_start_iff h.start_lt (by omega)]
    simp [hfull]

/-- The head variable is the end of the queue, or the size while the end is
position zero. -/
theorem head_cases (h : InvAt s t l) :
    s.queue.head.toNat = place s.queue.maxSize.toNat t l.length ∨
      s.queue.head = s.queue.maxSize ∧ place s.queue.maxSize.toNat t l.length = 0 := by
  have hhead := h.head
  cases hp : s.producer <;> rw [hp] at hhead <;>
    first
    | exact Or.inl hhead
    | exact Or.inr ⟨BitVec.eq_of_toNat_eq hhead.1,hhead.2⟩

/-- The tail variable is the start of the queue, or the size while the start
is position zero. -/
theorem tail_cases (h : InvAt s t l) :
    s.queue.tail.toNat = t ∨ s.queue.tail = s.queue.maxSize ∧ t = 0 := by
  have htail := h.tail
  cases hc : s.consumer <;> rw [hc] at htail <;>
    first
    | exact Or.inl htail
    | exact Or.inr ⟨BitVec.eq_of_toNat_eq htail.1,htail.2⟩

/-- A full test that passes has found room when it has read a settled tail. -/
theorem room_of_test (h : InvAt s t l) {head : U32}
    (hhead : head.toNat = following s.queue.maxSize.toNat (place s.queue.maxSize.toNat t l.length))
    (hs : head = 0#32 → s.queue.tail ≠ s.queue.maxSize) (hne : head ≠ s.queue.tail) :
    l.length + 1 < s.queue.maxSize.toNat := by
  have hlen := h.length_lt
  by_contra hroom
  have hfull : head.toNat = t := hhead.trans (h.following_end_eq_iff.mpr (by omega))
  rcases h.tail_cases with htail | ⟨htail,ht⟩
  · exact hne (BitVec.eq_of_toNat_eq (hfull.trans htail.symm))
  · exact hs (BitVec.eq_of_toNat_eq (hfull.trans ht)) htail

/-- A test that has found room is not repeated with another result. -/
theorem ne_tail_of_room (h : InvAt s t l) {head : U32}
    (hhead : head.toNat = following s.queue.maxSize.toNat (place s.queue.maxSize.toNat t l.length))
    (hroom : l.length + 1 < s.queue.maxSize.toNat) : head ≠ s.queue.tail := by
  have hlt := following_lt h.end_lt
  intro heq
  rcases h.tail_cases with htail | ⟨htail,-⟩
  · have hfull := h.following_end_eq_iff.mp (by rw [← hhead,heq,htail])
    omega
  · rw [heq,htail] at hhead
    omega

/-- A field stored behind the end of the queue. -/
theorem setNode (h : InvAt s t l) (hindex : index.toNat = place s.queue.maxSize.toNat t l.length)
    (hroom : l.length + 1 < s.queue.maxSize.toNat) {p : Producer}
    (hhead : HeadOk s.queue.maxSize.toNat (place s.queue.maxSize.toNat t l.length) s.queue.head p)
    (hp : ProducerOk s.queue.maxSize.toNat (place s.queue.maxSize.toNat t l.length) l.length y p) :
    InvAt { s.setNode index y with producer := p } t l where
  two_le := h.two_le
  start_lt := h.start_lt
  length_lt := h.length_lt
  queued := by
    show Queued s.queue.maxSize.toNat (update s.queue.nodeArray index.toNat y) t l
    rw [hindex]
    exact h.queued.write le_rfl h.length_lt
  head := hhead
  tail := h.tail
  producer := by
    show ProducerOk s.queue.maxSize.toNat (place s.queue.maxSize.toNat t l.length) l.length
      (update s.queue.nodeArray index.toNat y (place s.queue.maxSize.toNat t l.length)) p
    rw [hindex,update_self]
    exact hp
  consumer := by
    show ConsumerOk s.queue.maxSize.toNat (update s.queue.nodeArray index.toNat y) t l s.accepted
      s.delivered s.consumer
    rw [hindex]
    exact h.consumer.write hroom

/-- The head moves past an element. -/
theorem publish (h : InvAt s t l) {head : U32} (hroom : l.length + 1 < s.queue.maxSize.toNat)
    (hx : s.queue.nodeArray (place s.queue.maxSize.toNat t l.length) = x) {p : Producer}
    (hnew : HeadOk s.queue.maxSize.toNat (place s.queue.maxSize.toNat t (l.length + 1))
      (head + 1#32) p)
    (hp : p = .idle ∨ p = .moveWrap) :
    InvAt { s.setHead (head + 1#32) with accepted := s.accepted ++ [x], producer := p } t
      (l ++ [x]) where
  two_le := h.two_le
  start_lt := h.start_lt
  length_lt := by
    rw [List.length_append,List.length_singleton]
    exact hroom
  queued := h.queued.push hx
  head := by
    rw [List.length_append,List.length_singleton]
    exact hnew
  tail := h.tail
  producer := by rcases hp with rfl | rfl <;> trivial
  consumer := h.consumer.push hx

/-- The index after a head that stands at the end of the list. -/
theorem toNat_next_head (h : InvAt s t l)
    (hhead : s.queue.head.toNat = place s.queue.maxSize.toNat t l.length) :
    (increment s.queue.maxSize s.queue.head).toNat =
      following s.queue.maxSize.toNat (place s.queue.maxSize.toNat t l.length) := by
  rw [← hhead]
  exact toNat_increment (by rw [hhead]; exact h.end_lt)

/-- Every step of the producer that reads a settled tail keeps the
invariant. -/
theorem producerStep (h : InvAt s t l) (hs : Settled s .producer) :
    ∃ l', InvAt (producerStep s) t l' := by
  have hhead := h.head
  have hprod := h.producer
  unfold Settled at hs
  unfold InterCoreQueueSteps.producerStep
  cases hp : s.producer <;> rw [hp] at hhead hprod hs <;> simp only
  case idle => exact ⟨l,h⟩
  case enqHead x =>
    refine ⟨l,h.setProducer hhead ?_⟩
    exact h.toNat_next_head hhead
  case enqTail x head =>
    refine ⟨l,?_⟩
    split
    · exact h.setProducer hhead trivial
    · next hne =>
      have hroom := h.room_of_test hprod hs hne
      exact h.setProducer hhead ⟨hroom,trivial⟩
  case slot x field =>
    exact ⟨l,h.setProducer hhead ⟨hprod.1,hprod.2,hhead⟩⟩
  case field x field index =>
    obtain ⟨hroom,hstored,hindex⟩ := hprod
    refine ⟨l,h.setNode hindex hroom ?_ ?_⟩
    · cases field <;> exact hhead
    · rw [hindex]
      cases field with
      | dataBuffer => exact ⟨hroom,rfl⟩
      | dataBufferLen => exact ⟨hroom,hstored,rfl⟩
      | packetId =>
        refine ⟨hroom,?_⟩
        obtain ⟨hbuf,hlen⟩ := hstored
        simp only [Field.store,hbuf,hlen]
  case fullHead x =>
    refine ⟨l,h.setProducer hhead ⟨hprod.1,hprod.2,?_⟩⟩
    exact h.toNat_next_head hhead
  case fullTail x head =>
    obtain ⟨hroom,hx,hnext⟩ := hprod
    rw [if_neg (h.ne_tail_of_room hnext hroom)]
    exact ⟨l,h.setProducer hhead ⟨hroom,hx⟩⟩
  case dropLoad => exact hprod.elim
  case dropStore => exact hprod.elim
  case dropWrap => exact hprod.elim
  case moveLoad x => exact ⟨l,h.setProducer hhead ⟨hprod.1,hprod.2,hhead⟩⟩
  case moveStore x head =>
    obtain ⟨hroom,hx,hh⟩ := hprod
    have hlt : head.toNat < s.queue.maxSize.toNat := hh ▸ h.end_lt
    refine ⟨l ++ [x],h.publish hroom hx ?_ ?_⟩
    · rw [← following_place (by omega),← hh]
      split
      · next hend => exact ⟨by rw [hend],following_of_end hlt hend⟩
      · next hend => exact toNat_add_one_of_ne hlt hend
    · split
      · exact Or.inr rfl
      · exact Or.inl rfl
  case moveWrap =>
    exact ⟨l,{ h with head := hhead.2.symm, producer := trivial }⟩

/-- The consumer takes the front element. -/
theorem taken (h : InvAt s t (x :: l)) :
    Queued s.queue.maxSize.toNat s.queue.nodeArray
        (following s.queue.maxSize.toNat t) l ∧
      Behind s.queue.maxSize.toNat s.queue.nodeArray (following s.queue.maxSize.toNat t) l t x ∧
      place s.queue.maxSize.toNat (following s.queue.maxSize.toNat t) l.length =
        place s.queue.maxSize.toNat t (x :: l).length :=
  ⟨h.queued.rest h.start_lt,⟨h.start_lt,rfl,h.queued⟩,place_following h.start_lt⟩

/-- The tail moves past the front element. -/
theorem shorter (h : InvAt s t (x :: l)) {tail : U32} {c : Consumer} {delivered : List IcqNode}
    (htail : TailOk s.queue.maxSize.toNat (following s.queue.maxSize.toNat t) tail c)
    (hc : ConsumerOk s.queue.maxSize.toNat s.queue.nodeArray
      (following s.queue.maxSize.toNat t) l s.accepted delivered c) :
    InvAt { s.setTail tail with consumer := c, delivered := delivered }
      (following s.queue.maxSize.toNat t) l := by
  obtain ⟨hqueued,-,hplace⟩ := h.taken
  have hlen := h.length_lt
  rw [List.length_cons] at hlen
  refine ⟨h.two_le,following_lt h.start_lt,?_,hqueued,?_,htail,?_,hc⟩
  · show l.length < s.queue.maxSize.toNat
    omega
  · show HeadOk s.queue.maxSize.toNat
      (place s.queue.maxSize.toNat (following s.queue.maxSize.toNat t) l.length) s.queue.head
      s.producer
    rw [hplace]
    exact h.head
  · show ProducerOk s.queue.maxSize.toNat
      (place s.queue.maxSize.toNat (following s.queue.maxSize.toNat t) l.length) l.length
      (s.queue.nodeArray
        (place s.queue.maxSize.toNat (following s.queue.maxSize.toNat t) l.length)) s.producer
    rw [hplace]
    exact h.producer.shorter (by rw [List.length_cons]; omega)

/-- The element in the node the consumer returns is the next one delivered. -/
theorem handedOver {node : IcqNode} (hnode : node = x) (hacc : s.accepted = s.delivered ++ x :: l) :
    s.accepted = (s.delivered ++ [node]) ++ l ∧ (s.delivered ++ [node]).getLast? = some x := by
  rw [hnode,hacc,List.getLast?_concat]
  simp

/-- A full test that has read a settled head finds elements. -/
theorem ne_nil_of_full (h : InvAt s t l) (htail : s.queue.tail.toNat = t)
    (hs : s.queue.head = s.queue.maxSize → increment s.queue.maxSize s.queue.head ≠ s.queue.tail)
    (hnext : (increment s.queue.maxSize s.queue.head).toNat = t) : l ≠ [] := by
  rcases h.head_cases with hhead | ⟨hhead,-⟩
  · rw [h.toNat_next_head hhead] at hnext
    have hfull := h.following_end_eq_iff.mp hnext
    have htwo := h.two_le
    rintro rfl
    simp at hfull
    omega
  · exact absurd (BitVec.eq_of_toNat_eq (hnext.trans htail.symm)) (hs hhead)

/-- A settled head other than the start finds elements. -/
theorem ne_nil_of_head_ne (h : InvAt s t l) (htail : s.queue.tail.toNat = t)
    (hs : s.queue.head = s.queue.maxSize → s.queue.tail ≠ 0#32)
    (hne : s.queue.head.toNat ≠ t) : l ≠ [] := by
  rintro rfl
  have hend : place s.queue.maxSize.toNat t ([] : List IcqNode).length = t :=
    place_zero h.start_lt
  rcases h.head_cases with hhead | ⟨hhead,hzero⟩
  · exact hne (hhead.trans hend)
  · refine hs hhead (BitVec.eq_of_toNat_eq ?_)
    rw [htail,← hend,hzero]
    rfl

/-- Every step of the consumer that reads a settled head keeps the
invariant. -/
theorem consumerStep (h : InvAt s t l) (hs : Settled s .consumer) :
    ∃ t' l', InvAt (consumerStep s) t' l' := by
  have htail := h.tail
  have hcons := h.consumer
  unfold Settled at hs
  unfold InterCoreQueueSteps.consumerStep
  cases hc : s.consumer <;> rw [hc] at htail hcons hs <;> simp only
  case idle => exact ⟨t,l,h⟩
  case fullHead =>
    exact ⟨t,l,h.setConsumer htail ⟨hcons,fun hnext => h.ne_nil_of_full htail hs hnext⟩⟩
  case fullTail head =>
    refine ⟨t,l,?_⟩
    split
    · next heq => exact h.setConsumer htail ⟨hcons.1,hcons.2 (by rw [heq]; exact htail)⟩
    · exact h.setConsumer htail hcons.1
  case emptyHead =>
    exact ⟨t,l,h.setConsumer htail ⟨hcons,fun hne => h.ne_nil_of_head_ne htail hs hne⟩⟩
  case emptyTail head =>
    refine ⟨t,l,?_⟩
    split
    · exact h.setConsumer htail hcons.1
    · next hne =>
      exact h.setConsumer htail
        ⟨hcons.1,hcons.2 fun he => hne (BitVec.eq_of_toNat_eq (he.trans htail.symm))⟩
  case take => exact ⟨t,l,h.setConsumer htail ⟨hcons.1,hcons.2,htail⟩⟩
  case moveLoad node =>
    exact ⟨t,l,h.setConsumer htail ⟨hcons.1,hcons.2.1,hcons.2.2,htail⟩⟩
  case moveStore node tail =>
    obtain ⟨hacc,hl,hnode,ht⟩ := hcons
    obtain ⟨x,l,rfl⟩ := List.exists_cons_of_ne_nil hl
    obtain ⟨-,hbehind,-⟩ := h.taken
    have hlt : tail.toNat < s.queue.maxSize.toNat := ht ▸ h.start_lt
    refine ⟨following s.queue.maxSize.toNat t,l,?_⟩
    split
    · next hend =>
      exact h.shorter ⟨by rw [hend],ht ▸ following_of_end hlt hend⟩ ⟨x,hacc,hnode ▸ hbehind⟩
    · next hend =>
      have hx : s.queue.nodeArray node.toNat = x := by
        rw [hnode]
        exact h.queued.front h.start_lt
      obtain ⟨hrest,hlast⟩ := handedOver hx hacc
      refine h.shorter ?_ ⟨hrest,x,hlast,hnode ▸ hbehind⟩
      exact (toNat_add_one_of_ne hlt hend).trans (by rw [ht])
  case moveWrap node =>
    obtain ⟨x,hacc,hbehind⟩ := hcons
    have hx : s.queue.nodeArray node.toNat = x := hbehind.front
    obtain ⟨hrest,hlast⟩ := handedOver hx hacc
    exact ⟨t,l,{ h with tail := htail.2.symm, consumer := ⟨hrest,x,hlast,hbehind⟩ }⟩

/-- Elements come out in order, and the returned node keeps its element. -/
theorem inOrder (h : InvAt s t l) : InOrder s := by
  have hcons := h.consumer
  constructor
  · cases hc : s.consumer <;> rw [hc] at hcons
    case idle node =>
      cases node with
      | none => exact ⟨l,hcons.symm⟩
      | some node => exact ⟨l,hcons.1.symm⟩
    case fullHead => exact ⟨l,hcons.symm⟩
    case emptyHead => exact ⟨l,hcons.symm⟩
    case moveWrap node =>
      obtain ⟨x,hacc,-⟩ := hcons
      exact ⟨x :: l,hacc.symm⟩
    all_goals exact ⟨l,hcons.1.symm⟩
  · intro node hc
    rw [hc] at hcons
    obtain ⟨-,x,hx,hbehind⟩ := hcons
    rw [hx,hbehind.front]

end InvAt

/-- The queue holds some elements from some position on. -/
def Inv (s : State) : Prop := ∃ t l, InvAt s t l

theorem inv_start (c : Created) : Inv (start c) :=
  ⟨c.index.toNat,[],c.two_le,c.index_lt,Nat.lt_of_lt_of_le Nat.two_pos c.two_le,
    queued_nil,(place_zero c.index_lt).symm,rfl,trivial,rfl⟩

/-- Every event whose tests read settled indices keeps the invariant. -/
theorem inv_step {e : Event} (h : Inv s) (hs : Settled s e) : Inv (step s e) := by
  obtain ⟨t,l,h⟩ := h
  cases e with
  | enq x =>
    simp only [step]
    split
    · next hp =>
      have hhead := h.head
      rw [hp] at hhead
      exact ⟨t,l,h.setProducer hhead trivial⟩
    · exact ⟨t,l,h⟩
  | deq =>
    simp only [step]
    split
    · next node hc =>
      have htail := h.tail
      have hcons := h.consumer
      rw [hc] at htail hcons
      refine ⟨t,l,h.setConsumer htail ?_⟩
      cases node with
      | none => exact hcons
      | some node => exact hcons.1
    · exact ⟨t,l,h⟩
  | producer =>
    obtain ⟨l',h'⟩ := h.producerStep hs
    exact ⟨t,l',h'⟩
  | consumer => exact h.consumerStep hs

/-- From every empty queue, over every interleaving in which the tests read
settled indices, the elements come out in order and the returned node keeps
its content. -/
theorem in_order_of_settled (c : Created) (events : List Event)
    (h : Guarded step Settled (start c) events) : Along step InOrder (start c) events :=
  along_mono (fun _ ⟨_,_,hinv⟩ => hinv.inOrder)
    (along_of_guarded (fun _ _ hinv hs => inv_step hinv hs) (inv_start c) h)

/-- An element with one value in all fields. -/
def element (value : U32) : IcqNode := ⟨value,value,value⟩

/-- The producer has put a second element in a queue of two nodes and has
yet to store the head as zero, while the consumer takes that element. -/
def overtaken : List Event :=
  .enq (element 1#32) :: List.replicate 12 .producer ++
    .deq :: List.replicate 7 .consumer ++
    .enq (element 2#32) :: List.replicate 12 .producer ++
    .deq :: List.replicate 8 .consumer

/-- A queue of three nodes from its last index. -/
def threeNodes : Created := ⟨3#32,2#32,fun _ => ⟨0#32,0#32,0#32⟩,by decide,by decide⟩

/-- Both programs call and take their steps in turn. -/
def inTurn (value : U32) : List Event :=
  .enq (element value) :: .deq :: (List.replicate 13 [Event.producer,.consumer]).flatten

/-- Four elements pass through a queue that holds two; the head wraps twice
and the tail twice. -/
def passing : List Event :=
  .enq (element 1#32) :: List.replicate 13 .producer ++
    inTurn 2#32 ++ inTurn 3#32 ++ inTurn 4#32 ++ .deq :: List.replicate 8 .consumer

theorem in_order_passing :
    Along step InOrder (start threeNodes) passing ∧
      (run step (start threeNodes) passing).delivered =
        [element 1#32,element 2#32,element 3#32,element 4#32] :=
  ⟨in_order_of_settled threeNodes passing (by decide +kernel),by decide +kernel⟩

/-- The next call of the consumer returns the first element again. -/
theorem element_returned_twice :
    ¬ Along step InOrder (start twoNodes) (overtaken ++ .deq :: List.replicate 7 .consumer) := by
  intro h
  have hprefix := (along_final h).isPrefix
  revert hprefix
  decide

end EthernetFirmware.InterCoreQueueSteps
