import EthernetFirmware.Lockstep
import EthernetFirmware.RemoteConfig
import EthernetFirmware.RingQueues

/-!
# Inter-core queue

The queue in shared memory through which the TAP application and the
remote core pass buffers. Head and tail are indices into the node array;
one node stays unused, so that a full queue and an empty one differ. Every
function asserts the magic number of an initialised queue, which none of
them changes. The queue is compared with a list of bounded length.
-/

namespace EthernetFirmware.InterCoreQueue

open Function GuardedRuns Lockstep RemoteConfig RingQueues

/-- `IcQ_Node`, without its reserved word. -/
structure IcqNode where
  /-- Physical address of the data buffer. -/
  dataBuffer : U32
  /-- Data buffer length. -/
  dataBufferLen : U32
  /-- Packet number. -/
  packetId : U32
  deriving DecidableEq

/-- `IcQ`. -/
structure Icq where
  /-- Index of the next node to fill. -/
  head : U32
  /-- Index of the oldest node. -/
  tail : U32
  /-- Number of nodes in the queue. -/
  maxSize : U32
  /-- Nodes by index. -/
  nodeArray : ℕ → IcqNode

/-- `ICQ_RETURN_SUCCESS`. -/
def icqReturnSuccess : Status := 0

/-- `ICQ_ERR_QFULL`. -/
def icqErrQfull : Status := -0x1001

/-- An index after its increment, with the wrap to zero. -/
def increment (maxSize index : U32) : U32 :=
  if index + 1#32 = maxSize then 0#32 else index + 1#32

/-- `IcQueue_isQFull`. -/
def isQFull (q : Icq) : Bool := decide (increment q.maxSize q.head = q.tail)

/-- `IcQueue_isQEmpty`. -/
def isQEmpty (q : Icq) : Bool := !isQFull q && decide (q.head = q.tail)

/-- `icQueue_moveTail`. -/
def moveTail (q : Icq) : Icq := { q with tail := increment q.maxSize q.tail }

/-- `IcQueue_moveHead`. On a full queue the oldest node is dropped first. -/
def moveHead (q : Icq) : Icq :=
  let q := if isQFull q then moveTail q else q
  { q with head := increment q.maxSize q.head }

/-- `IcQueue_resetQ`. -/
def resetQ (q : Icq) : Icq := { q with head := 0#32, tail := 0#32 }

/-- `IcQueue_getQCount`. -/
def getQCount (q : Icq) : U32 :=
  if isQFull q then q.maxSize
  else if q.tail ≤ q.head then q.head - q.tail
  else q.maxSize + q.head - q.tail

/-- `IcQueue_getQMaxSize`. -/
def getQMaxSize (q : Icq) : U32 := q.maxSize

/-- `IcQueue_enq`. -/
def enq (q : Icq) (pNode : IcqNode) : Status × Icq :=
  if isQFull q then (icqErrQfull,q)
  else
    (icqReturnSuccess,
      moveHead { q with nodeArray := update q.nodeArray q.head.toNat pNode })

/-- `IcQueue_deq`: the index of the node whose address is returned. -/
def deq (q : Icq) : Option ℕ × Icq :=
  if isQEmpty q then (none,q) else (some q.tail.toNat,moveTail q)

/-- Calls on the queue. -/
inductive Call where
  | enq (pNode : IcqNode)
  | deq
  | resetQ
  | isQFull
  | isQEmpty
  | getQCount
  | getQMaxSize

/-- What a call returns. -/
inductive Answer where
  | status (status : Status)
  | node (node : Option IcqNode)
  | flag (flag : Bool)
  | count (count : ℕ)
  | done
  deriving DecidableEq

/-- A call on the queue. A dequeued node is read through the returned
address. -/
def onQueue (q : Icq) : Call → Answer × Icq
  | .enq pNode => (.status (enq q pNode).1,(enq q pNode).2)
  | .deq => (.node ((deq q).1.map (deq q).2.nodeArray),(deq q).2)
  | .resetQ => (.done,resetQ q)
  | .isQFull => (.flag (isQFull q),q)
  | .isQEmpty => (.flag (isQEmpty q),q)
  | .getQCount => (.count (getQCount q).toNat,q)
  | .getQMaxSize => (.count (getQMaxSize q).toNat,q)

/-- A call on a list of bounded length. -/
def onList (capacity : ℕ) (l : List IcqNode) : Call → Answer × List IcqNode
  | .enq pNode =>
    if l.length < capacity then (.status icqReturnSuccess,l ++ [pNode])
    else (.status icqErrQfull,l)
  | .deq => (.node l.head?,l.tail)
  | .resetQ => (.done,[])
  | .isQFull => (.flag (decide (l.length = capacity)),l)
  | .isQEmpty => (.flag l.isEmpty,l)
  | .getQCount => (.count l.length,l)
  | .getQMaxSize => (.count (capacity + 1),l)

/-- The position just before the queue still holds the element taken from
it. -/
def Behind (n : ℕ) (nodes : ℕ → IcqNode) (t : ℕ) (l : List IcqNode) (k : ℕ) (x : IcqNode) :
    Prop :=
  k < n ∧ following n k = t ∧ Queued n nodes k (x :: l)

/-- The queue holds exactly the list, in order, with its indices in
range. -/
structure Represents (q : Icq) (l : List IcqNode) : Prop where
  /-- The queue has a node beside the unused one. -/
  two_le : 2 ≤ q.maxSize.toNat
  /-- The tail is an index of the queue. -/
  tail_lt : q.tail.toNat < q.maxSize.toNat
  /-- The head is the place behind the last element. -/
  head_eq : q.head.toNat = place q.maxSize.toNat q.tail.toNat l.length
  /-- One node stays unused. -/
  length_lt : l.length < q.maxSize.toNat
  /-- The elements lie in their places. -/
  queued : Queued q.maxSize.toNat q.nodeArray q.tail.toNat l

variable {q : Icq} {l : List IcqNode} {x y : IcqNode} {index maxSize : U32} {n k t : ℕ}
  {nodes : ℕ → IcqNode}

/-- A store behind the end of the queue leaves the taken element alone. -/
theorem Behind.write (h : Behind n nodes t l k x) (hroom : l.length + 1 < n) :
    Behind n (update nodes (place n t l.length) y) t l k x := by
  obtain ⟨hk,rfl,hq⟩ := h
  refine ⟨hk,rfl,?_⟩
  rw [place_following hk]
  exact hq.write (by rw [List.length_cons]) hroom

/-- The taken element is still in its node. -/
theorem Behind.front (h : Behind n nodes t l k x) : nodes k = x := h.2.2.front h.1

theorem Behind.push (h : Behind n nodes t l k x) (hy : nodes (place n t l.length) = y) :
    Behind n nodes t (l ++ [y]) k x := by
  obtain ⟨hk,rfl,hq⟩ := h
  rw [place_following hk] at hy
  exact ⟨hk,rfl,hq.push hy⟩

theorem toNat_add_one (h : index.toNat < maxSize.toNat) :
    (index + 1#32).toNat = index.toNat + 1 := by
  have hmax := maxSize.isLt
  exact toNat_succ (by omega)

/-- An index whose increment is the size is followed by the first one. -/
theorem following_of_end (h : index.toNat < maxSize.toNat) (hend : index + 1#32 = maxSize) :
    following maxSize.toNat index.toNat = 0 :=
  following_of_eq ((toNat_add_one h).symm.trans (congrArg BitVec.toNat hend))

/-- Any other index is followed by its increment. -/
theorem toNat_add_one_of_ne (h : index.toNat < maxSize.toNat) (hend : index + 1#32 ≠ maxSize) :
    (index + 1#32).toNat = following maxSize.toNat index.toNat := by
  have hadd := toNat_add_one h
  rw [hadd,following_of_ne]
  exact fun he => hend (BitVec.eq_of_toNat_eq (hadd.trans he))

theorem toNat_increment (h : index.toNat < maxSize.toNat) :
    (increment maxSize index).toNat = following maxSize.toNat index.toNat := by
  unfold increment
  split
  · next hend =>
    rw [following_of_end h hend]
    rfl
  · next hend => exact toNat_add_one_of_ne h hend

namespace Represents

theorem head_lt (h : Represents q l) : q.head.toNat < q.maxSize.toNat := by
  rw [h.head_eq]
  exact place_lt (by have := h.two_le; omega)

theorem toNat_nextHead (h : Represents q l) :
    (increment q.maxSize q.head).toNat = place q.maxSize.toNat q.tail.toNat (l.length + 1) := by
  rw [toNat_increment h.head_lt,h.head_eq]
  exact following_place (by have := h.two_le; omega)

theorem isQFull_eq (h : Represents q l) :
    isQFull q = decide (l.length + 1 = q.maxSize.toNat) := by
  unfold isQFull
  rw [decide_eq_decide,← BitVec.toNat_inj,h.toNat_nextHead]
  have hlen := h.length_lt
  by_cases hfull : l.length + 1 = q.maxSize.toNat
  · rw [hfull,place_full h.tail_lt]
    simp
  · rw [place_eq_start_iff h.tail_lt (by omega)]
    simp [hfull]

theorem isQEmpty_eq (h : Represents q l) : isQEmpty q = l.isEmpty := by
  have htwo := h.two_le
  unfold isQEmpty
  rw [h.isQFull_eq,Bool.eq_iff_iff,Bool.and_eq_true,Bool.not_eq_true',decide_eq_false_iff_not,
    decide_eq_true_eq,← BitVec.toNat_inj,h.head_eq,place_eq_start_iff h.tail_lt h.length_lt,
    List.isEmpty_iff,List.length_eq_zero_iff]
  constructor
  · exact fun he => he.2
  · rintro rfl
    exact ⟨by simp; omega,rfl⟩

/-- The count is right except in the full state, where it is one more than
the number of elements. -/
theorem toNat_getQCount (h : Represents q l) :
    (getQCount q).toNat = if l.length + 1 = q.maxSize.toNat then l.length + 1 else l.length := by
  have hhead := h.head_eq
  rw [place_eq h.tail_lt h.length_lt] at hhead
  have htail := h.tail_lt
  have hlen := h.length_lt
  unfold getQCount
  rw [h.isQFull_eq]
  by_cases hfull : l.length + 1 = q.maxSize.toNat
  · simp [hfull]
  · rw [if_neg (by simpa using hfull),if_neg hfull]
    split at hhead <;> split <;> bv_omega

theorem resetQ (h : Represents q l) : Represents (resetQ q) [] where
  two_le := h.two_le
  tail_lt := by
    have := h.two_le
    show (0#32).toNat < q.maxSize.toNat
    simp
    omega
  head_eq := by
    have := h.two_le
    exact (place_zero (by show (0#32).toNat < q.maxSize.toNat; simp; omega)).symm
  length_lt := by
    have := h.two_le
    show 0 < q.maxSize.toNat
    omega
  queued := queued_nil

/-- With room for a node, the node at the head is written and the head moves. -/
theorem enq_eq (h : Represents q l) (hroom : l.length + 1 < q.maxSize.toNat) :
    enq q x = (icqReturnSuccess,
      { q with
        head := increment q.maxSize q.head
        nodeArray := update q.nodeArray q.head.toNat x }) := by
  have hfull : isQFull q = false := by
    rw [h.isQFull_eq]
    simp
    omega
  have hmove : isQFull { q with nodeArray := update q.nodeArray q.head.toNat x } = false := hfull
  simp [enq,moveHead,hfull,hmove]

/-- With room for a node, an element joins the queue. -/
theorem enq_ok (h : Represents q l) (hroom : l.length + 1 < q.maxSize.toNat) :
    (enq q x).1 = icqReturnSuccess ∧ Represents (enq q x).2 (l ++ [x]) := by
  rw [h.enq_eq hroom]
  refine ⟨rfl,h.two_le,h.tail_lt,?_,?_,?_⟩
  · rw [List.length_append,List.length_singleton]
    exact h.toNat_nextHead
  · rw [List.length_append,List.length_singleton]
    exact hroom
  · rw [h.head_eq]
    exact (h.queued.write le_rfl (by omega)).push (update_self _ _ _)

theorem enq_full (h : Represents q l) (hfull : l.length + 1 = q.maxSize.toNat) :
    enq q x = (icqErrQfull,q) := by
  unfold enq
  rw [if_pos (by rw [h.isQFull_eq]; simpa using hfull)]

theorem deq_nil (h : Represents q []) : deq q = (none,q) := by
  unfold deq
  rw [if_pos (by rw [h.isQEmpty_eq]; rfl)]

/-- The oldest element leaves a queue that is not empty. -/
theorem deq_cons (h : Represents q (x :: l)) :
    deq q = (some q.tail.toNat,moveTail q) ∧ q.nodeArray q.tail.toNat = x ∧
      Represents (moveTail q) l := by
  have hlen := h.length_lt
  rw [List.length_cons] at hlen
  refine ⟨?_,h.queued.front h.tail_lt,h.two_le,?_,?_,?_,?_⟩
  · unfold deq
    rw [if_neg (by rw [h.isQEmpty_eq]; simp)]
  · show (increment q.maxSize q.tail).toNat < q.maxSize.toNat
    rw [toNat_increment h.tail_lt]
    exact following_lt h.tail_lt
  · show q.head.toNat = place q.maxSize.toNat (increment q.maxSize q.tail).toNat l.length
    rw [toNat_increment h.tail_lt,place_following h.tail_lt,h.head_eq,List.length_cons]
  · show l.length < q.maxSize.toNat
    omega
  · show Queued q.maxSize.toNat q.nodeArray (increment q.maxSize q.tail).toNat l
    rw [toNat_increment h.tail_lt]
    exact h.queued.rest h.tail_lt

end Represents

/-- The queue holds the list in its number of nodes. -/
def RepresentsIn (maxSize : U32) (q : Icq) (l : List IcqNode) : Prop :=
  q.maxSize = maxSize ∧ Represents q l

/-- A queue as its creator hands it over: two nodes or more, all empty. -/
structure Created where
  /-- Number of nodes. -/
  maxSize : U32
  /-- The common value of head and tail. -/
  index : U32
  /-- What the nodes hold. -/
  nodeArray : ℕ → IcqNode
  /-- The queue has a node beside the unused one. -/
  two_le : 2 ≤ maxSize.toNat
  /-- The index is one of the queue. -/
  index_lt : index.toNat < maxSize.toNat

/-- The created queue. -/
def Created.queue (c : Created) : Icq := ⟨c.index,c.index,c.maxSize,c.nodeArray⟩

/-- Number of elements the queue takes. -/
def Created.capacity (c : Created) : ℕ := c.maxSize.toNat - 1

theorem Created.represents (c : Created) : RepresentsIn c.maxSize c.queue [] :=
  ⟨rfl,c.two_le,c.index_lt,(place_zero c.index_lt).symm,
    show 0 < c.maxSize.toNat by have := c.two_le; omega,queued_nil⟩

/-- The call is not a count in the full state. -/
def NotCountedFull (q : Icq) (call : Call) : Prop := call = .getQCount → isQFull q = false

theorem maxSize_enq (q : Icq) (x : IcqNode) : (enq q x).2.maxSize = q.maxSize := by
  unfold enq moveHead moveTail
  split
  · rfl
  · simp only
    split <;> rfl

/-- The capacity is one less than the nodes of the queue. -/
theorem capacity_add_one (c : Created) (h : RepresentsIn c.maxSize q l) :
    c.capacity + 1 = q.maxSize.toNat := by
  obtain ⟨hmax,hrep⟩ := h
  have htwo := hrep.two_le
  unfold Created.capacity
  rw [hmax] at htwo ⊢
  omega

/-- An element put in leaves list and queue in step. -/
theorem call_enq (c : Created) (h : RepresentsIn c.maxSize q l) (x : IcqNode) :
    RepresentsIn c.maxSize (next onQueue q (.enq x)) (next (onList c.capacity) l (.enq x)) ∧
      (onQueue q (.enq x)).1 = (onList c.capacity l (.enq x)).1 := by
  have hcap := capacity_add_one c h
  obtain ⟨hmax,hrep⟩ := h
  have hlen := hrep.length_lt
  by_cases hroom : l.length < c.capacity
  · obtain ⟨hstatus,hnew⟩ := hrep.enq_ok (x := x) (by omega)
    refine ⟨⟨(maxSize_enq q x).trans hmax,?_⟩,?_⟩
    · simpa [next,onQueue,onList,hroom] using hnew
    · simp [onQueue,onList,hroom,hstatus]
  · have hfull := hrep.enq_full (x := x) (by omega)
    refine ⟨⟨?_,?_⟩,?_⟩ <;> simp [next,onQueue,onList,hroom,hfull,hmax,hrep]

/-- An element taken out leaves list and queue in step. -/
theorem call_deq (c : Created) (h : RepresentsIn c.maxSize q l) :
    RepresentsIn c.maxSize (next onQueue q .deq) (next (onList c.capacity) l .deq) ∧
      (onQueue q .deq).1 = (onList c.capacity l .deq).1 := by
  obtain ⟨hmax,hrep⟩ := h
  cases l with
  | nil =>
    have hdeq := hrep.deq_nil
    refine ⟨⟨?_,?_⟩,?_⟩ <;> simp [next,onQueue,onList,hdeq,hmax,hrep]
  | cons x l =>
    obtain ⟨hdeq,hnode,hnew⟩ := hrep.deq_cons
    refine ⟨⟨?_,?_⟩,?_⟩
    · simp [next,onQueue,hdeq,moveTail,hmax]
    · simpa [next,onQueue,onList,hdeq] using hnew
    · simp [onQueue,onList,hdeq,moveTail,hnode]

/-- A call leaves list and queue in step unless it is a count in the full
state. -/
theorem call_exact (c : Created) (h : RepresentsIn c.maxSize q l) (call : Call) :
    (RepresentsIn c.maxSize (next onQueue q call) (next (onList c.capacity) l call) ∧
        (onQueue q call).1 = (onList c.capacity l call).1) ↔ NotCountedFull q call := by
  unfold NotCountedFull
  have hcap := capacity_add_one c h
  have henq := call_enq c h
  have hdeq := call_deq c h
  obtain ⟨hmax,hrep⟩ := h
  have hlen := hrep.length_lt
  cases call with
  | enq x => exact iff_of_true (henq x) (by simp)
  | deq => exact iff_of_true hdeq (by simp)
  | resetQ => exact iff_of_true ⟨⟨hmax,hrep.resetQ⟩,rfl⟩ (by simp)
  | isQFull =>
    refine iff_of_true ⟨⟨hmax,hrep⟩,?_⟩ (by simp)
    simp only [onQueue,onList,hrep.isQFull_eq,← hcap,Nat.add_right_cancel_iff]
  | isQEmpty =>
    refine iff_of_true ⟨⟨hmax,hrep⟩,?_⟩ (by simp)
    simp only [onQueue,onList,hrep.isQEmpty_eq]
  | getQCount =>
    have hcount := hrep.toNat_getQCount
    have hfull := hrep.isQFull_eq
    simp only [next,onQueue,onList,hcount,hfull,Answer.count.injEq,forall_const]
    split
    · next hlast =>
      refine iff_of_false (fun h => ?_) (by simp [hlast])
      have hsame := h.2
      omega
    · next hlast => exact iff_of_true ⟨⟨hmax,hrep⟩,rfl⟩ (by simpa using hlast)
  | getQMaxSize =>
    refine iff_of_true ⟨⟨hmax,hrep⟩,?_⟩ (by simp)
    simp only [onQueue,onList,getQMaxSize,hcap]

/-- From every empty queue and over every sequence of calls, the queue is a
bounded list in order exactly when no count is taken in the full state. -/
theorem bounded_list_iff (c : Created) (calls : List Call) :
    Agree onQueue (onList c.capacity) (RepresentsIn c.maxSize) (c.queue,[]) calls ↔
      Guarded (next onQueue) NotCountedFull c.queue calls := by
  rw [agree_iff_guarded (f := onQueue) (g := onList c.capacity)
    (G := fun s call => NotCountedFull s.1 call)
    (fun _ call h => call_exact c h call) c.represents]
  exact guarded_both (H := NotCountedFull)

/-- A queue of two nodes from index zero. -/
def twoNodes : Created := ⟨2#32,0#32,fun _ => ⟨0#32,0#32,0#32⟩,by decide,by decide⟩

/-- A queue of two nodes that holds one element counts two. -/
theorem full_queue_counts_unused_node :
    ¬ Agree onQueue (onList twoNodes.capacity) (RepresentsIn twoNodes.maxSize)
      (twoNodes.queue,[]) [.enq ⟨1#32,1#32,1#32⟩,.getQCount] := by
  intro h
  have hanswer := h.answers.2.1
  revert hanswer
  unfold SameAnswer
  decide

end EthernetFirmware.InterCoreQueue
