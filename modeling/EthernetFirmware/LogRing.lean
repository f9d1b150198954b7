import Mathlib.Data.List.TakeWhile
import EthernetFirmware.RingQueues
import EthernetFirmware.RemoteConfig
import EthernetFirmware.GuardedRuns

/-!
# Log ring of a core

A core writes strings into a ring in shared memory, each with its
terminator, and the reader takes them out in segments that end at a
terminating character. Both indices are kept unwrapped for a while: each
side wraps an index when it is about to use it. Ring and buffer indices are
recorded.
-/

namespace EthernetFirmware.LogRing

open Function GuardedRuns RingQueues RemoteConfig

/-- `app_log_cpu_shared_mem_t`. -/
structure LogMem where
  /-- `log_rd_idx`. -/
  rdIdx : ℕ
  /-- `log_wr_idx`. -/
  wrIdx : ℕ
  /-- `log_area_is_valid` holds the flag. -/
  areaIsValid : Bool
  /-- `log_mem`. -/
  mem : ℕ → U8

/-- A string in the writer's buffer, without its terminator. -/
abbrev Message := {bytes : List U8 // 0#8 ∉ bytes}

/-- Characters that end a segment. -/
def isTerminator (c : U8) : Bool := c == 0xA0#8 || c == 13#8 || c == 10#8 || c == 0#8

variable {n : ℕ}

/-- An index that has reached the end of the ring starts it anew. -/
def wrap (n i : ℕ) : ℕ := if n ≤ i then 0 else i

/-- Memory, index and the ring indices used while bytes are copied in. -/
structure Written where
  /-- `log_mem`. -/
  mem : ℕ → U8
  /-- `wr_idx`. -/
  wrIdx : ℕ
  /-- Ring indices written. -/
  indices : List ℕ

/-- The copy loop of `appLogWrPutString`. -/
def copyIn (n : ℕ) : List U8 → Written → Written
  | [], w => w
  | b :: bs, w =>
    copyIn n bs
      ⟨update w.mem (wrap n w.wrIdx) b,wrap n w.wrIdx + 1,w.indices ++ [wrap n w.wrIdx]⟩

/-- `max_bytes` of `appLogWrPutString`. -/
def maxBytes (n : ℕ) (m : LogMem) : ℕ :=
  if wrap n m.wrIdx < wrap n m.rdIdx then wrap n m.rdIdx - wrap n m.wrIdx
  else n - wrap n m.wrIdx + wrap n m.rdIdx

/-- Result of `appLogWrPutString`. -/
structure PutResult where
  /-- Shared memory. -/
  log : LogMem
  /-- Status. -/
  status : Int
  /-- Ring indices written. -/
  indices : List ℕ

/-- `appLogWrPutString` on a ring of `n` bytes. -/
def putString (n : ℕ) (m : LogMem) (buf : Message) : PutResult :=
  if m.areaIsValid = false then ⟨m,-1,[]⟩
  else if buf.val.length = 0 then ⟨m,-1,[]⟩
  else if maxBytes n m - 1 < buf.val.length then ⟨m,-1,[]⟩
  else
    let w := copyIn n buf.val ⟨m.mem,wrap n m.wrIdx,[]⟩
    let wrIdx := wrap n w.wrIdx
    ⟨{ m with mem := update w.mem wrIdx 0#8, wrIdx := wrap n (wrIdx + 1) },0,
      w.indices ++ [wrIdx]⟩

/-- `num_bytes` of `appLogRdGetString`. -/
def numBytes (n : ℕ) (m : LogMem) : ℕ :=
  if m.wrIdx < m.rdIdx then n - m.rdIdx + m.wrIdx else m.wrIdx - m.rdIdx

/-- Index, buffer and the ring indices used while a segment is copied out.
The bytes lie at the buffer's indices from zero on. -/
structure Copied where
  /-- `rd_idx`. -/
  rdIdx : ℕ
  /-- Bytes in the buffer. -/
  buf : List U8
  /-- Ring indices read. -/
  indices : List ℕ

/-- The copy loop of `appLogRdGetString`, with the bytes that remain and
`copy_bytes`. -/
def copyOut (n : ℕ) (mem : ℕ → U8) (bufSize : ℕ) : ℕ → ℕ → Copied → Copied
  | 0, _, c => c
  | remaining + 1, copyBytes, c =>
    let rdIdx := wrap n c.rdIdx
    let curChar := mem rdIdx
    let indices := c.indices ++ [rdIdx]
    if isTerminator curChar then ⟨rdIdx + 1,c.buf,indices⟩
    else if n ≤ copyBytes then ⟨rdIdx + 1,c.buf,indices⟩
    else if bufSize < copyBytes then ⟨rdIdx + 1,c.buf,indices⟩
    else
      copyOut n mem bufSize remaining (copyBytes + 1) ⟨rdIdx + 1,c.buf ++ [curChar],indices⟩

/-- Result of `appLogRdGetString`. -/
structure GetResult where
  /-- Shared memory. -/
  log : LogMem
  /-- Number of bytes found in the ring. -/
  numBytes : ℕ
  /-- String in the buffer; its terminator lies behind it. -/
  str : List U8
  /-- Ring indices read. -/
  indices : List ℕ

/-- `appLogRdGetString` on a ring of `n` bytes. -/
def getString (n : ℕ) (m : LogMem) (bufSize : ℕ) : GetResult :=
  if 0 < numBytes n m then
    let c := copyOut n m.mem bufSize (numBytes n m) 0 ⟨m.rdIdx,[],[]⟩
    ⟨{ m with rdIdx := c.rdIdx },numBytes n m,c.buf,c.indices⟩
  else ⟨m,numBytes n m,[],[]⟩

/-- The log, the messages accepted and the strings delivered. -/
structure State where
  /-- Shared memory. -/
  log : LogMem
  /-- Messages accepted, oldest first. -/
  accepted : List Message
  /-- Non-empty strings delivered, oldest first. -/
  delivered : List (List U8)

/-- Calls of writer and reader. -/
inductive Event where
  /-- `appLogWrPutString`. -/
  | put (buf : Message)
  /-- `appLogRdGetString` with a buffer of some size. -/
  | get (bufSize : ℕ)

/-- State after a call. -/
def step (n : ℕ) (s : State) : Event → State
  | .put buf =>
    let r := putString n s.log buf
    ⟨r.log,if r.status = 0 then s.accepted ++ [buf] else s.accepted,s.delivered⟩
  | .get bufSize =>
    let r := getString n s.log bufSize
    ⟨r.log,s.accepted,if r.str = [] then s.delivered else s.delivered ++ [r.str]⟩

/-- An empty ring with both indices at some place. -/
def start (i : Fin n) (areaIsValid : Bool) (mem : ℕ → U8) : State :=
  ⟨⟨i.val,i.val,areaIsValid,mem⟩,[],[]⟩

/-- Bytes in the ring, as the reader finds them. -/
def stored (n : ℕ) (m : LogMem) : List U8 :=
  List.ofFn fun k : Fin (numBytes n m) => m.mem (place n (wrap n m.rdIdx) k.val)

/-- Non-empty segments of a string. -/
def segments (bytes : List U8) : List (List U8) :=
  (bytes.splitOnP isTerminator).filter fun s => !s.isEmpty

/-- Nothing is lost, duplicated or merged. -/
def Lossless (n : ℕ) (s : State) : Prop :=
  s.delivered ++ segments (stored n s.log) = s.accepted.flatMap fun m => segments m.val

/-- What a call of the writer owes. -/
structure PutOk (n : ℕ) (m : LogMem) (buf : Message) : Prop where
  /-- A message that does not fit is refused. -/
  refused : n < (stored n m).length + buf.val.length + 1 → (putString n m buf).status = -1
  /-- A refused message changes nothing. -/
  unchanged : (putString n m buf).status ≠ 0 →
    (putString n m buf).status = -1 ∧ (putString n m buf).log = m
  /-- After an accepted message the ring is not empty. -/
  nonempty : (putString n m buf).status = 0 → stored n (putString n m buf).log ≠ []
  /-- Ring indices are in range. -/
  indices : ∀ i ∈ (putString n m buf).indices, i < n

/-- What a call of the reader owes: ring and buffer indices are in range. -/
structure GetOk (n : ℕ) (m : LogMem) (bufSize : ℕ) : Prop where
  /-- Ring indices. -/
  indices : ∀ i ∈ (getString n m bufSize).indices, i < n
  /-- Buffer indices; the last one is that of the terminator. -/
  buffer : (getString n m bufSize).str.length < bufSize

/-- What a call owes. -/
def CallOk (n : ℕ) (s : State) : Event → Prop
  | .put buf => PutOk n s.log buf
  | .get bufSize => GetOk n s.log bufSize

/-- Bytes before the first terminating character. -/
def nextSegment (bytes : List U8) : List U8 := bytes.takeWhile fun c => !isTerminator c

/-- The condition on the calls: a message with its terminator does not fill
the ring exactly, and the next segment with its terminator fits the
buffer. -/
def Regular (n : ℕ) (s : State) : Event → Prop
  | .put buf => s.log.areaIsValid = true → buf.val ≠ [] → buf.val.length + 1 ≠ maxBytes n s.log
  | .get bufSize => (nextSegment (stored n s.log)).length < bufSize

/-- The ring holds the bytes. The read index may have reached the end of
the ring. -/
structure Represents (n : ℕ) (m : LogMem) (l : List U8) : Prop where
  /-- The read index is in the ring or at its end. -/
  rd_le : m.rdIdx ≤ n
  /-- The bytes lie in their places. -/
  queued : Queued n m.mem (wrap n m.rdIdx) l
  /-- The write index is behind them. -/
  wr_eq : m.wrIdx = place n (wrap n m.rdIdx) l.length
  /-- A byte of the ring stays free. -/
  length_lt : l.length < n

/-- Stored bytes end with a terminator. -/
def Closed (l : List U8) : Prop := l = [] ∨ ∃ l', l = l' ++ [0#8]

/-- Stored bytes account for what is not delivered yet. -/
structure Inv (n : ℕ) (s : State) (l : List U8) : Prop where
  /-- Ring. -/
  ring : Represents n s.log l
  /-- Terminators. -/
  closed : Closed l
  /-- Account. -/
  account : s.delivered ++ segments l = s.accepted.flatMap fun m => segments m.val

section Indices

variable {m : LogMem} {l : List U8} {i k : ℕ}

theorem wrap_lt (h : 0 < n) : wrap n i < n := by
  unfold wrap
  split <;> omega

theorem wrap_of_lt (h : i < n) : wrap n i = i := if_neg (Nat.not_le.mpr h)

theorem wrap_succ (h : k < n) : wrap n (k + 1) = following n k := by
  unfold wrap following
  split <;> split <;> omega

theorem Represents.pos (h : Represents n m l) : 0 < n := Nat.zero_lt_of_lt h.length_lt

theorem Represents.wr_lt (h : Represents n m l) : m.wrIdx < n := by
  rw [h.wr_eq]
  exact place_lt h.pos

/-- The reader's count is the number of bytes. -/
theorem Represents.numBytes_eq (h : Represents n m l) : numBytes n m = l.length := by
  have hwr := h.wr_eq
  rw [place_eq (wrap_lt h.pos) h.length_lt] at hwr
  have hrd := h.rd_le
  have hlen := h.length_lt
  unfold numBytes
  unfold wrap at hwr
  split at hwr <;> split at hwr <;> split <;> omega

/-- The writer's space is the rest of the ring. -/
theorem Represents.maxBytes_eq (h : Represents n m l) : maxBytes n m = n - l.length := by
  have hwr := h.wr_eq
  have hrd : wrap n m.rdIdx < n := wrap_lt h.pos
  rw [place_eq hrd h.length_lt] at hwr
  have hlen := h.length_lt
  unfold maxBytes
  rw [wrap_of_lt h.wr_lt]
  split at hwr <;> split <;> omega

theorem Represents.stored_eq (h : Represents n m l) : stored n m = l := by
  apply List.ext_getElem?
  intro k
  unfold stored
  rw [List.getElem?_ofFn]
  split
  · next hk =>
    rw [h.numBytes_eq] at hk
    rw [List.getElem?_eq_getElem hk]
    exact congrArg some (h.queued k _ (List.getElem?_eq_getElem hk))
  · next hk =>
    rw [h.numBytes_eq] at hk
    rw [List.getElem?_eq_none (Nat.le_of_not_lt hk)]

end Indices

section Copies

variable {mem : ℕ → U8} {t k : ℕ} {l xs ys : List U8} {w : Written} {c : Copied}
  {d : U8}

/-- The bytes copied in so far follow the queue in the ring. -/
structure Filled (n t : ℕ) (l : List U8) (w : Written) : Prop where
  /-- The bytes lie in their places. -/
  queued : Queued n w.mem t l
  /-- The next byte goes behind them. -/
  wr_eq : wrap n w.wrIdx = place n t l.length
  /-- Ring indices are in range. -/
  indices : ∀ i ∈ w.indices, i < n

/-- One byte more. -/
theorem Filled.write (h : Filled n t l w) (hlen : l.length < n) (b : U8) :
    Filled n t (l ++ [b])
      ⟨update w.mem (wrap n w.wrIdx) b,wrap n w.wrIdx + 1,w.indices ++ [wrap n w.wrIdx]⟩ := by
  have hn : 0 < n := Nat.zero_lt_of_lt hlen
  constructor
  · have hwrite := h.queued.write (y := b) le_rfl hlen
    rw [← h.wr_eq] at hwrite
    apply hwrite.push
    rw [← h.wr_eq]
    exact update_self ..
  · rw [wrap_succ (wrap_lt hn),h.wr_eq,following_place hn,List.length_append,List.length_singleton]
  · intro i hi
    rcases List.mem_append.mp hi with hi | hi
    · exact h.indices i hi
    · obtain rfl := List.mem_singleton.mp hi
      exact wrap_lt hn

theorem Filled.copyIn (h : Filled n t l w) (bytes : List U8)
    (hfit : l.length + bytes.length ≤ n) :
    Filled n t (l ++ bytes) (copyIn n bytes w) := by
  induction bytes generalizing l w with
  | nil =>
    rw [List.append_nil]
    exact h
  | cons b bs ih =>
    rw [List.length_cons] at hfit
    have hnext := h.write (by omega) b
    have hrest := ih hnext (by
      rw [List.length_append,List.length_singleton]
      omega)
    rw [List.append_assoc] at hrest
    exact hrest

/-- Copying out stops at the terminating character or when the buffer's
size is exceeded. -/
theorem copyOut_buf (bufSize : ℕ) (hq : Queued n mem (wrap n c.rdIdx) l) (hlen : k + l.length < n) :
    (copyOut n mem bufSize l.length k c).buf =
      c.buf ++ (nextSegment l).take (bufSize + 1 - k) := by
  induction l generalizing c k with
  | nil => simp [copyOut,nextSegment]
  | cons x xs ih =>
    rw [List.length_cons] at hlen ⊢
    have hrd : wrap n c.rdIdx < n := wrap_lt (by omega)
    unfold copyOut nextSegment
    simp only [hq.front hrd]
    by_cases hx : isTerminator x = true
    · rw [if_pos hx,List.takeWhile_cons_of_neg (by simpa using hx),List.take_nil,List.append_nil]
    rw [if_neg hx,if_neg (by omega),List.takeWhile_cons_of_pos (by simpa using hx)]
    split
    · next hsize =>
      rw [Nat.sub_eq_zero_of_le hsize,List.take_zero,List.append_nil]
    · next hsize =>
      have hq' := hq.rest hrd
      rw [← wrap_succ hrd] at hq'
      have hroom : bufSize + 1 - k = bufSize + 1 - (k + 1) + 1 := by omega
      rw [ih hq' (by omega),List.append_assoc,List.singleton_append,hroom,List.take_succ_cons]
      rfl

theorem copyOut_indices (bufSize remaining : ℕ) (hn : 0 < n) (hc : ∀ i ∈ c.indices, i < n) :
    ∀ i ∈ (copyOut n mem bufSize remaining k c).indices, i < n := by
  induction remaining generalizing c k with
  | zero => exact hc
  | succ remaining ih =>
    have hnext : ∀ i ∈ c.indices ++ [wrap n c.rdIdx], i < n := by
      intro i hi
      rcases List.mem_append.mp hi with hi | hi
      · exact hc i hi
      · obtain rfl := List.mem_singleton.mp hi
        exact wrap_lt hn
    unfold copyOut
    simp only
    split
    · exact hnext
    split
    · exact hnext
    split
    · exact hnext
    · exact ih hnext

/-- Copying out a segment that fits leaves the bytes behind its terminating
character. -/
theorem copyOut_rest (bufSize : ℕ) (hd : isTerminator d = true)
    (hxs : ∀ x ∈ xs, isTerminator x = false)
    (hq : Queued n mem (wrap n c.rdIdx) (xs ++ d :: ys))
    (hlen : k + (xs ++ d :: ys).length < n) (hfit : k + xs.length ≤ bufSize) :
    let out := copyOut n mem bufSize (xs ++ d :: ys).length k c
    out.rdIdx ≤ n ∧ Queued n mem (wrap n out.rdIdx) ys ∧
      place n (wrap n out.rdIdx) ys.length = place n (wrap n c.rdIdx) (xs ++ d :: ys).length := by
  have hrd : wrap n c.rdIdx < n := wrap_lt (by omega)
  have hwrap : wrap n (wrap n c.rdIdx + 1) = following n (wrap n c.rdIdx) := wrap_succ hrd
  induction xs generalizing c k with
  | nil =>
    rw [List.nil_append] at hq ⊢
    rw [List.length_cons]
    unfold copyOut
    simp only [hq.front hrd,if_pos hd]
    rw [hwrap,place_following hrd]
    exact ⟨hrd,hq.rest hrd,rfl⟩
  | cons x xs ih =>
    rw [List.cons_append] at hq hlen ⊢
    rw [List.length_cons] at hlen hfit ⊢
    have hx : ¬ isTerminator x = true := by simp [hxs x List.mem_cons_self]
    have hq' := hq.rest hrd
    rw [← hwrap] at hq'
    have hrd' : wrap n (wrap n c.rdIdx + 1) < n := wrap_lt (by omega)
    unfold copyOut
    simp only [hq.front hrd]
    rw [if_neg hx,if_neg (by omega),if_neg (by omega)]
    have hrest := ih (k := k + 1)
      (c := ⟨wrap n c.rdIdx + 1,c.buf ++ [x],c.indices ++ [wrap n c.rdIdx]⟩)
      (fun y hy => hxs y (List.mem_cons_of_mem x hy)) hq' (by omega) (by omega) hrd'
      (wrap_succ hrd')
    rw [← place_following hrd,← hwrap]
    exact hrest

end Copies

section Segments

variable {l l' xs ys : List U8} {c : U8}

/-- A terminating character separates segments. -/
theorem segments_append (hc : isTerminator c = true) (xs ys : List U8) :
    segments (xs ++ c :: ys) = segments xs ++ segments ys := by
  unfold segments
  rw [List.splitOnP_append_cons xs ys hc,List.filter_append]

theorem segments_nil : segments [] = [] := rfl

/-- A message with its terminator adds its segments. -/
theorem Closed.segments_append (h : Closed l) (bytes : List U8) :
    segments (l ++ (bytes ++ [0#8])) = segments l ++ segments bytes := by
  have hmsg : segments (bytes ++ [0#8]) = segments bytes := by
    rw [LogRing.segments_append rfl,segments_nil,List.append_nil]
  rcases h with rfl | ⟨l',rfl⟩
  · rw [List.nil_append,hmsg]
    rfl
  · rw [List.append_assoc,List.singleton_append,LogRing.segments_append rfl,hmsg,
      LogRing.segments_append rfl,segments_nil,List.append_nil]

/-- The next segment is the first one, unless it is empty. -/
theorem segments_next (hc : isTerminator c = true) (hxs : ∀ x ∈ xs, isTerminator x = false) :
    segments (xs ++ c :: ys) = (if xs = [] then [] else [xs]) ++ segments ys := by
  rw [LogRing.segments_append hc]
  congr 1
  unfold segments
  rw [List.splitOnP_eq_singleton hxs]
  split <;> simp [*]

/-- Stored bytes begin with a segment and a terminating character. -/
theorem Closed.split (h : Closed l) (hl : l ≠ []) :
    ∃ c ys, isTerminator c = true ∧ l = nextSegment l ++ c :: ys ∧ Closed ys := by
  rcases h with rfl | ⟨l',rfl⟩
  · exact absurd rfl hl
  clear hl
  induction l' with
  | nil => exact ⟨0#8,[],rfl,rfl,Or.inl rfl⟩
  | cons x xs ih =>
    by_cases hx : isTerminator x = true
    · refine ⟨x,xs ++ [0#8],hx,?_,Or.inr ⟨xs,rfl⟩⟩
      simp [nextSegment,hx]
    · obtain ⟨c,ys,hc,hsplit,hclosed⟩ := ih
      refine ⟨c,ys,hc,?_,hclosed⟩
      rw [List.cons_append]
      unfold nextSegment
      rw [List.takeWhile_cons_of_pos (by simpa using hx),List.cons_append]
      exact congrArg (x :: ·) hsplit

theorem nextSegment_plain (l : List U8) : ∀ x ∈ nextSegment l, isTerminator x = false := by
  intro x hx
  have hp := List.mem_takeWhile_imp hx
  simpa using hp

end Segments

section Calls

variable {m : LogMem} {l : List U8} {buf : Message} {bufSize : ℕ} {s : State}

/-- A message and its terminator are appended. -/
structure Appended (n : ℕ) (m : LogMem) (l : List U8) (buf : Message) (r : PutResult) :
    Prop where
  /-- The status is success. -/
  status : r.status = 0
  /-- The read index stays. -/
  rd_eq : r.log.rdIdx = m.rdIdx
  /-- The bytes lie in their places. -/
  queued : Queued n r.log.mem (wrap n m.rdIdx) (l ++ (buf.val ++ [0#8]))
  /-- The write index is behind them. -/
  wr_eq : r.log.wrIdx = place n (wrap n m.rdIdx) (l ++ (buf.val ++ [0#8])).length
  /-- Ring indices are in range. -/
  indices : ∀ i ∈ r.indices, i < n

/-- A message takes its bytes and the terminator. -/
theorem length_put (l : List U8) (buf : Message) :
    (l ++ (buf.val ++ [0#8])).length = l.length + buf.val.length + 1 := by
  rw [List.length_append,List.length_append,List.length_singleton]
  omega

/-- A message is refused with nothing changed, or fits and is appended. -/
theorem putString_cases (h : Represents n m l) (buf : Message) :
    (putString n m buf = ⟨m,-1,[]⟩ ∧
      (m.areaIsValid = true → buf.val ≠ [] → n < l.length + buf.val.length + 1)) ∨
    (m.areaIsValid = true ∧ buf.val ≠ [] ∧ l.length + buf.val.length + 1 ≤ n ∧
      Appended n m l buf (putString n m buf)) := by
  unfold putString
  by_cases hvalid : m.areaIsValid = false
  · rw [if_pos hvalid]
    exact Or.inl ⟨rfl,fun hv => by simp [hvalid] at hv⟩
  rw [if_neg hvalid]
  by_cases hempty : buf.val.length = 0
  · rw [if_pos hempty]
    exact Or.inl ⟨rfl,fun _ hb => absurd (List.eq_nil_of_length_eq_zero hempty) hb⟩
  rw [if_neg hempty,h.maxBytes_eq]
  have hlen := h.length_lt
  by_cases hspace : n - l.length - 1 < buf.val.length
  · rw [if_pos hspace]
    exact Or.inl ⟨rfl,fun _ _ => by omega⟩
  rw [if_neg hspace]
  have hwrap : wrap n (wrap n m.wrIdx) = place n (wrap n m.rdIdx) l.length := by
    rw [wrap_of_lt h.wr_lt,wrap_of_lt h.wr_lt]
    exact h.wr_eq
  have hbefore : Filled n (wrap n m.rdIdx) l ⟨m.mem,wrap n m.wrIdx,[]⟩ :=
    ⟨h.queued,hwrap,fun i hi => absurd hi List.not_mem_nil⟩
  have hcopied := hbefore.copyIn buf.val (by omega)
  have hafter := hcopied.write (by
    rw [List.length_append]
    omega) 0#8
  rw [List.append_assoc] at hafter
  refine Or.inr ⟨by simpa using hvalid,fun hb => hempty (congrArg List.length hb),by omega,?_⟩
  exact ⟨rfl,rfl,hafter.queued,hafter.wr_eq,hafter.indices⟩

/-- A message that leaves a byte free is in the ring. -/
theorem Appended.represents {r : PutResult} (h : Represents n m l) (ha : Appended n m l buf r)
    (hfree : (l ++ (buf.val ++ [0#8])).length < n) :
    Represents n r.log (l ++ (buf.val ++ [0#8])) := by
  constructor
  · rw [ha.rd_eq]
    exact h.rd_le
  · rw [ha.rd_eq]
    exact ha.queued
  · rw [ha.rd_eq]
    exact ha.wr_eq
  · exact hfree

/-- A message that fills the ring makes it look empty. -/
theorem Appended.stored_eq_nil {r : PutResult} (h : Represents n m l)
    (ha : Appended n m l buf r) (hfull : (l ++ (buf.val ++ [0#8])).length = n) :
    stored n r.log = [] := by
  have hwr : r.log.wrIdx = wrap n m.rdIdx := by
    rw [ha.wr_eq,hfull,place_full (wrap_lt h.pos)]
  have hcount : numBytes n r.log = 0 := by
    have hle := h.rd_le
    unfold numBytes
    rw [hwr,ha.rd_eq]
    unfold wrap
    split <;> split <;> omega
  apply List.eq_nil_of_length_eq_zero
  unfold stored
  rw [List.length_ofFn,hcount]

/-- The reader delivers the next segment as far as the buffer's size lets
it. -/
theorem getString_str (h : Represents n m l) (bufSize : ℕ) :
    (getString n m bufSize).str = (nextSegment l).take (bufSize + 1) := by
  unfold getString
  rw [h.numBytes_eq]
  split
  · have hlen := h.length_lt
    have hbuf := copyOut_buf (c := ⟨m.rdIdx,[],[]⟩) (k := 0) bufSize h.queued (by omega)
    simpa using hbuf
  · next hempty =>
    obtain rfl : l = [] := List.eq_nil_of_length_eq_zero (by omega)
    rfl

theorem getString_indices (h : Represents n m l) (bufSize : ℕ) :
    ∀ i ∈ (getString n m bufSize).indices, i < n := by
  unfold getString
  split
  · exact copyOut_indices bufSize _ h.pos fun i hi => absurd hi List.not_mem_nil
  · exact fun i hi => absurd hi List.not_mem_nil

/-- The indices of a read are in range exactly when the next segment fits
the buffer. -/
theorem getOk_iff (h : Represents n m l) :
    GetOk n m bufSize ↔ (nextSegment l).length < bufSize := by
  have hlen : (getString n m bufSize).str.length = min (bufSize + 1) (nextSegment l).length := by
    rw [getString_str h,List.length_take]
  constructor
  · intro hok
    have hbuf := hok.buffer
    omega
  · intro hfit
    exact ⟨getString_indices h bufSize,by omega⟩

/-- A read whose buffer has room leaves the bytes behind the terminating
character of the next segment. -/
theorem getString_split (h : Represents n m l) (hclosed : Closed l) (hl : l ≠ [])
    (hfit : (nextSegment l).length < bufSize) :
    ∃ c ys, isTerminator c = true ∧ l = nextSegment l ++ c :: ys ∧ Closed ys ∧
      Represents n (getString n m bufSize).log ys := by
  obtain ⟨c,ys,hc,hsplit,hys⟩ := hclosed.split hl
  refine ⟨c,ys,hc,hsplit,hys,?_⟩
  have hlen := h.length_lt
  have hpos := List.length_pos_of_ne_nil hl
  have hq := h.queued
  rw [hsplit] at hq
  have hrest := copyOut_rest (c := ⟨m.rdIdx,[],[]⟩) (k := 0) bufSize hc
    (nextSegment_plain l) hq (by
      rw [← hsplit]
      omega) (by omega)
  rw [← hsplit] at hrest
  obtain ⟨hle,hqueued,hend⟩ := hrest
  have hshort : ys.length ≤ l.length := by
    have hall := congrArg List.length hsplit
    rw [List.length_append,List.length_cons] at hall
    omega
  unfold getString
  rw [h.numBytes_eq,if_pos hpos]
  exact ⟨hle,hqueued,h.wr_eq.trans hend.symm,by omega⟩

/-- A read whose buffer has room delivers the next segment and leaves the
bytes behind its terminating character. -/
theorem getString_rest (h : Represents n m l) (hclosed : Closed l)
    (hfit : (nextSegment l).length < bufSize) :
    ∃ ys, Represents n (getString n m bufSize).log ys ∧ Closed ys ∧
      segments l = (if (getString n m bufSize).str = [] then [] else
        [(getString n m bufSize).str]) ++ segments ys := by
  have hstr : (getString n m bufSize).str = nextSegment l := by
    rw [getString_str h]
    exact List.take_of_length_le (by omega)
  by_cases hl : l = []
  · subst hl
    have hget : getString n m bufSize = ⟨m,0,[],[]⟩ := by
      unfold getString
      rw [h.numBytes_eq]
      rfl
    rw [hget]
    exact ⟨[],h,Or.inl rfl,rfl⟩
  obtain ⟨c,ys,hc,hsplit,hys,hring⟩ := getString_split h hclosed hl hfit
  refine ⟨ys,hring,hys,?_⟩
  rw [hstr]
  calc segments l = segments (nextSegment l ++ c :: ys) := congrArg segments hsplit
    _ = _ := segments_next hc (nextSegment_plain l)

/-- The empty ring of the start. -/
theorem inv_start (i : Fin n) (areaIsValid : Bool) (mem : ℕ → U8) :
    Inv n (start i areaIsValid mem) [] := by
  refine ⟨⟨i.isLt.le,queued_nil,?_,Nat.zero_lt_of_lt i.isLt⟩,Or.inl rfl,rfl⟩
  show i.val = place n (wrap n i.val) 0
  rw [wrap_of_lt i.isLt,place_zero i.isLt]

theorem Inv.lossless (h : Inv n s l) : Lossless n s := by
  unfold Lossless
  rw [h.ring.stored_eq]
  exact h.account

/-- A message that is taken in a regular call leaves a byte free. -/
theorem Inv.room_of_regular (h : Inv n s l) (hr : Regular n s (.put buf))
    (hvalid : s.log.areaIsValid = true) (hbuf : buf.val ≠ [])
    (hfit : l.length + buf.val.length + 1 ≤ n) : (l ++ (buf.val ++ [0#8])).length < n := by
  have hne := hr hvalid hbuf
  have hlen := h.ring.length_lt
  rw [h.ring.maxBytes_eq] at hne
  rw [length_put]
  omega

/-- A regular call keeps the account. -/
theorem Inv.step {e : Event} (h : Inv n s l) (hr : Regular n s e) :
    ∃ l', Inv n (step n s e) l' := by
  cases e with
  | put buf =>
    rcases putString_cases h.ring buf with ⟨hput,-⟩ | ⟨hvalid,hbuf,hfit,happ⟩
    · refine ⟨l,?_⟩
      unfold LogRing.step
      simp only [hput]
      exact h
    · have hfree := h.room_of_regular hr hvalid hbuf hfit
      refine ⟨l ++ (buf.val ++ [0#8]),happ.represents h.ring hfree,
        Or.inr ⟨l ++ buf.val,(List.append_assoc ..).symm⟩,?_⟩
      unfold LogRing.step
      simp only [if_pos happ.status]
      rw [h.closed.segments_append,← List.append_assoc,h.account,List.flatMap_append,
        List.flatMap_singleton]
  | get bufSize =>
    have hfit : (nextSegment l).length < bufSize := by
      rw [← h.ring.stored_eq]
      exact hr
    obtain ⟨ys,hring,hclosed,hseg⟩ := getString_rest h.ring h.closed hfit
    refine ⟨ys,hring,hclosed,?_⟩
    show (if (getString n s.log bufSize).str = [] then s.delivered else
      s.delivered ++ [(getString n s.log bufSize).str]) ++ segments ys =
        s.accepted.flatMap fun m => segments m.val
    rw [← h.account,hseg,← List.append_assoc]
    congr 1
    by_cases hstr : (getString n s.log bufSize).str = []
    · rw [if_pos hstr,if_pos hstr,List.append_nil]
    · rw [if_neg hstr,if_neg hstr]

/-- A call that does what it owes is regular. -/
theorem Inv.regular_of_callOk {e : Event} (h : Inv n s l) (hok : CallOk n s e) :
    Regular n s e := by
  cases e with
  | put buf =>
    intro hvalid hbuf hexact
    have hlen := h.ring.length_lt
    rw [h.ring.maxBytes_eq] at hexact
    rcases putString_cases h.ring buf with ⟨-,hrefused⟩ | ⟨-,-,-,happ⟩
    · have hlarge := hrefused hvalid hbuf
      omega
    · apply hok.nonempty happ.status
      apply happ.stored_eq_nil h.ring
      rw [length_put]
      omega
  | get bufSize =>
    have hbuffer := (getOk_iff h.ring).mp hok
    rw [← h.ring.stored_eq] at hbuffer
    exact hbuffer

/-- A regular call of the writer does what it owes. -/
theorem Inv.putOk (h : Inv n s l) (hr : Regular n s (.put buf)) : PutOk n s.log buf := by
  rcases putString_cases h.ring buf with ⟨hput,-⟩ | ⟨hvalid,hbuf,hfit,happ⟩
  · refine ⟨fun _ => ?_,fun _ => ?_,fun hstatus => ?_,?_⟩
    · rw [hput]
    · rw [hput]
      exact ⟨rfl,rfl⟩
    · rw [hput] at hstatus
      cases hstatus
    · rw [hput]
      exact fun i hi => absurd hi List.not_mem_nil
  · refine ⟨fun hlarge => ?_,fun hstatus => absurd happ.status hstatus,fun _ => ?_,happ.indices⟩
    · rw [h.ring.stored_eq] at hlarge
      omega
    · have hfree := h.room_of_regular hr hvalid hbuf hfit
      rw [(happ.represents h.ring hfree).stored_eq]
      simp

/-- A regular call does what it owes. -/
theorem Inv.callOk_of_regular {e : Event} (h : Inv n s l) (hr : Regular n s e) :
    CallOk n s e := by
  cases e with
  | put buf => exact h.putOk hr
  | get bufSize =>
    apply (getOk_iff h.ring).mpr
    rw [← h.ring.stored_eq]
    exact hr

end Calls

/-- Along every run from an empty ring the log is lossless and every call
does what it owes exactly when no accepted message fills the ring with its
terminator and every read has room for the next segment with its
terminator. -/
theorem lossless_iff_regular (i : Fin n) (areaIsValid : Bool) (mem : ℕ → U8)
    (events : List Event) :
    Along (step n) (Lossless n) (start i areaIsValid mem) events ∧
        Guarded (step n) (CallOk n) (start i areaIsValid mem) events ↔
      Guarded (step n) (Regular n) (start i areaIsValid mem) events := by
  apply along_and_guarded_iff (I := fun s => ∃ l, Inv n s l)
  · rintro s ⟨l,h⟩
    exact h.lossless
  · rintro s e ⟨l,h⟩ hr
    exact h.step hr
  · rintro s e ⟨l,h⟩
    constructor
    · rintro ⟨-,hok⟩
      exact h.regular_of_callOk hok
    · intro hr
      obtain ⟨l',h'⟩ := h.step hr
      exact ⟨h'.lossless,h.callOk_of_regular hr⟩
  · exact ⟨[],inv_start i areaIsValid mem⟩

/-- Three bytes and their terminator. -/
def threeBytes : Message := ⟨[97#8,98#8,99#8],by decide⟩

/-- In an empty ring of four bytes a message of three bytes is accepted and
lost. -/
theorem exact_fit_lost :
    let s := step 4 (start (0 : Fin 4) true fun _ => 0#8) (.put threeBytes)
    s.accepted = [threeBytes] ∧ stored 4 s.log = [] ∧ ¬ Lossless 4 s := by
  refine ⟨rfl,rfl,?_⟩
  intro h
  exact absurd h (by
    unfold Lossless
    decide)

/-- A buffer of one byte is overrun by a segment of two bytes. -/
example : (getString 8 (step 8 (start (0 : Fin 8) true fun _ => 0#8)
    (.put ⟨[97#8,98#8],by decide⟩)).log 1).str.length = 2 := by decide

end EthernetFirmware.LogRing
