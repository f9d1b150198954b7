import EthernetFirmware.RemoteConfig
import EthernetFirmware.SlotTables

/-!
# Buffer pool

The pool of frame buffers in shared memory. A buffer is taken by a search
that starts at the last allocated one and wraps around, and given back
when its reference count returns to zero. The pool counts what it has
given out and got back without looking at the buffers; the two counts stay
apart by the number of buffers in use.
-/

namespace EthernetFirmware.BufferPool

open Function RemoteConfig SlotTables

/-- `ETH_FRAME_SIZE` without jumbo frames. -/
def ethFrameSize : ℕ := 1518

/-- `NUM_BUFFERS`. -/
def numBuffers : ℕ := 1280

/-- `Bufpool_Buf`. -/
structure BufpoolBuf where
  /-- Data buffer. -/
  payload : ℕ → U8
  /-- Valid payload length. -/
  payloadLen : U16
  /-- Reference count: zero for a free buffer. -/
  refCount : Int
  /-- One for a buffer in use, zero for a free one. -/
  isUsed : Int

/-- `Bufpool_Pool` of a number of buffers. -/
structure Bufpool (n : ℕ) where
  /-- Index of the last allocated buffer. -/
  lastAlloc : ℕ
  /-- Buffers given out. -/
  numBufGet : U32
  /-- Buffers got back. -/
  numBufFree : U32
  /-- Searches that have found no buffer. -/
  numBufGetErr : U32
  /-- The buffers. -/
  bufArray : Fin n → BufpoolBuf

variable {n : ℕ}

/-- `Bufpool_init`. -/
def init (n : ℕ) : Bufpool n := ⟨0,0#32,0#32,0#32,fun _ => ⟨fun _ => 0#8,0#16,0,0⟩⟩

/-- Search from the last allocated buffer to the end of the pool. -/
def searchToEnd (p : Bufpool n) : Option (Fin n) :=
  Fin.find? fun i => decide (p.lastAlloc ≤ i.val) && decide ((p.bufArray i).isUsed = 0)

/-- Search from the first buffer to the last allocated one. -/
def searchFromStart (p : Bufpool n) : Option (Fin n) :=
  Fin.find? fun i => decide (i.val < p.lastAlloc) && decide ((p.bufArray i).isUsed = 0)

/-- The buffer that `Bufpool_getBuf` finds. -/
def findFree (p : Bufpool n) : Option (Fin n) :=
  match searchToEnd p with
  | some i => some i
  | none => if p.lastAlloc ≤ n then searchFromStart p else none

/-- Mark a buffer as used. -/
def markUsed (p : Bufpool n) (i : Fin n) : Bufpool n :=
  { p with
    bufArray := update p.bufArray i { p.bufArray i with isUsed := 1, refCount := 1 }
    lastAlloc := i.val
    numBufGet := p.numBufGet + 1#32 }

/-- `Bufpool_getBuf`. -/
def getBuf (p : Bufpool n) : Option (Fin n) × Bufpool n :=
  match findFree p with
  | some i => (some i,markUsed p i)
  | none => (none,{ p with numBufGetErr := p.numBufGetErr + 1#32 })

/-- A buffer after one reference to it is dropped. -/
def dropRef (b : BufpoolBuf) : BufpoolBuf :=
  if 0 < b.refCount then
    if b.refCount - 1 = 0 then { b with refCount := b.refCount - 1, isUsed := 0 }
    else { b with refCount := b.refCount - 1 }
  else b

/-- `Bufpool_freeBuf` of a buffer of the pool. The pool number in the buffer
leads back to the pool. -/
def freeBuf (p : Bufpool n) (i : Fin n) : Bufpool n :=
  { p with
    bufArray := update p.bufArray i (dropRef (p.bufArray i))
    numBufFree := p.numBufFree + 1#32 }

/-- Store a payload of the given length. -/
def setPayload (p : Bufpool n) (i : Fin n) (payload : ℕ → U8) (payloadLen : U16) : Bufpool n :=
  { p with
    bufArray := update p.bufArray i
      { p.bufArray i with payload := payload, payloadLen := payloadLen } }

/-- The buffer is in use, with one reference. -/
def InUse (b : BufpoolBuf) : Prop := b.isUsed = 1 ∧ b.refCount = 1

/-- The buffer is free, with no reference. -/
def Free (b : BufpoolBuf) : Prop := b.isUsed = 0 ∧ b.refCount = 0

instance (b : BufpoolBuf) : Decidable (InUse b) := inferInstanceAs (Decidable (_ ∧ _))

/-- Number of buffers in use. -/
def usedCount (p : Bufpool n) : ℕ := slotCount (fun b => decide (InUse b)) p.bufArray

/-- The search starts within the pool, every buffer is in use or free, and
the counts differ by the buffers in use. -/
structure PoolOk (p : Bufpool n) : Prop where
  /-- The search starts within the pool. -/
  lastAlloc_le : p.lastAlloc ≤ n
  /-- Every buffer is in use or free. -/
  inUse_or_free : ∀ i, InUse (p.bufArray i) ∨ Free (p.bufArray i)
  /-- The counts differ by the buffers in use. -/
  balance : p.numBufGet - p.numBufFree = BitVec.ofNat 32 (usedCount p)

variable {p : Bufpool n} {i j : Fin n} {b : BufpoolBuf}

theorem InUse.not_free (h : InUse b) : ¬ Free b := by
  rintro ⟨hu,-⟩
  rw [h.1] at hu
  exact absurd hu (by decide)

theorem Free.not_inUse (h : Free b) : ¬ InUse b := fun hu => hu.not_free h

theorem findFree_isUsed (h : findFree p = some i) : (p.bufArray i).isUsed = 0 := by
  unfold findFree at h
  split at h
  · next j hj =>
    obtain rfl := Option.some.inj h
    have hfound := (Fin.find?_eq_some_iff.mp hj).1
    simp only [Bool.and_eq_true,decide_eq_true_eq] at hfound
    exact hfound.2
  · split at h
    · have hfound := (Fin.find?_eq_some_iff.mp h).1
      simp only [Bool.and_eq_true,decide_eq_true_eq] at hfound
      exact hfound.2
    · cases h

/-- The two searches together see every buffer. -/
theorem findFree_eq_none_iff (hlast : p.lastAlloc ≤ n) :
    findFree p = none ↔ ∀ i, (p.bufArray i).isUsed ≠ 0 := by
  constructor
  · intro h i hi
    unfold findFree at h
    split at h
    · cases h
    · next hend =>
      rw [if_pos hlast] at h
      rcases Nat.lt_or_ge i.val p.lastAlloc with hlt | hge
      · have hno := Fin.find?_eq_none_iff.mp h i
        simp [hlt,hi] at hno
      · have hno := Fin.find?_eq_none_iff.mp hend i
        simp [hge,hi] at hno
  · intro h
    cases hf : findFree p with
    | none => rfl
    | some i => exact absurd (findFree_isUsed hf) (h i)

namespace PoolOk

theorem free_of_isUsed (h : PoolOk p) (hi : (p.bufArray i).isUsed = 0) : Free (p.bufArray i) := by
  rcases h.inUse_or_free i with hu | hf
  · rw [hu.1] at hi
    exact absurd hi (by decide)
  · exact hf

/-- The pool gives out a free buffer, or refuses. -/
theorem getBuf_cases (h : PoolOk p) :
    (∃ i, Free (p.bufArray i) ∧ getBuf p = (some i,markUsed p i)) ∨
      (∀ i, InUse (p.bufArray i)) ∧
        getBuf p = (none,{ p with numBufGetErr := p.numBufGetErr + 1#32 }) := by
  unfold getBuf
  cases hf : findFree p with
  | some i => exact Or.inl ⟨i,h.free_of_isUsed (findFree_isUsed hf),rfl⟩
  | none =>
    refine Or.inr ⟨fun i => ?_,rfl⟩
    have hno := (findFree_eq_none_iff h.lastAlloc_le).mp hf i
    exact (h.inUse_or_free i).resolve_right fun hfree => hno hfree.1

/-- A buffer is refused exactly when all are in use. -/
theorem getBuf_eq_none_iff (h : PoolOk p) :
    (getBuf p).1 = none ↔ ∀ i, InUse (p.bufArray i) := by
  rcases h.getBuf_cases with ⟨i,hfree,hget⟩ | ⟨hall,hget⟩
  · rw [hget]
    exact iff_of_false (by simp) fun hall => (hall i).not_free hfree
  · rw [hget]
    exact iff_of_true rfl hall

theorem getBuf_free (h : PoolOk p) (hi : (getBuf p).1 = some i) : Free (p.bufArray i) := by
  rcases h.getBuf_cases with ⟨j,hfree,hget⟩ | ⟨-,hget⟩
  · rw [hget] at hi
    obtain rfl := Option.some.inj hi
    exact hfree
  · rw [hget] at hi
    cases hi

theorem markUsed (h : PoolOk p) (hi : Free (p.bufArray i)) : PoolOk (markUsed p i) where
  lastAlloc_le := i.isLt.le
  inUse_or_free := by
    intro j
    by_cases hj : j = i
    · subst hj
      exact Or.inl (by simp [BufferPool.markUsed,InUse])
    · simp only [BufferPool.markUsed,update_of_ne hj]
      exact h.inUse_or_free j
  balance := by
    have hcount : usedCount (BufferPool.markUsed p i) = usedCount p + 1 :=
      slotCount_update_gain (by simpa using hi.not_inUse) (by simp [InUse])
    rw [hcount,BitVec.ofNat_add,← h.balance]
    show p.numBufGet + 1#32 - p.numBufFree = p.numBufGet - p.numBufFree + 1#32
    bv_omega

theorem dropRef_of_inUse (hi : InUse b) : Free (dropRef b) := by
  obtain ⟨hu,hr⟩ := hi
  simp [dropRef,hr,Free]

theorem freeBuf (h : PoolOk p) (hi : InUse (p.bufArray i)) : PoolOk (freeBuf p i) where
  lastAlloc_le := h.lastAlloc_le
  inUse_or_free := by
    intro j
    by_cases hj : j = i
    · subst hj
      simp only [BufferPool.freeBuf,update_self]
      exact Or.inr (dropRef_of_inUse hi)
    · simp only [BufferPool.freeBuf,update_of_ne hj]
      exact h.inUse_or_free j
  balance := by
    have hcount : usedCount (BufferPool.freeBuf p i) + 1 = usedCount p :=
      slotCount_update_loss (by simpa using hi)
        (by simpa using (dropRef_of_inUse hi).not_inUse)
    have hbal := h.balance
    rw [← hcount,BitVec.ofNat_add] at hbal
    show p.numBufGet - (p.numBufFree + 1#32) = _
    have hsub : p.numBufGet - (p.numBufFree + 1#32) = p.numBufGet - p.numBufFree - 1#32 := by
      bv_omega
    rw [hsub,hbal]
    bv_omega

/-- The payload of a buffer matters to no count. -/
theorem setPayload (h : PoolOk p) (payload : ℕ → U8) (payloadLen : U16) :
    PoolOk (setPayload p i payload payloadLen) where
  lastAlloc_le := h.lastAlloc_le
  inUse_or_free := by
    intro j
    by_cases hj : j = i
    · subst hj
      simp only [BufferPool.setPayload,update_self]
      exact h.inUse_or_free j
    · simp only [BufferPool.setPayload,update_of_ne hj]
      exact h.inUse_or_free j
  balance := by
    have hcount : usedCount (BufferPool.setPayload p i payload payloadLen) = usedCount p :=
      slotCount_update_same rfl
    rw [hcount]
    exact h.balance

end PoolOk

theorem poolOk_init (n : ℕ) : PoolOk (init n) where
  lastAlloc_le := Nat.zero_le n
  inUse_or_free := fun _ => Or.inr ⟨rfl,rfl⟩
  balance := by
    have hcount : usedCount (init n) = 0 := slotCount_eq_zero_iff.mpr fun _ => rfl
    rw [hcount]
    exact BitVec.sub_self 0#32

end EthernetFirmware.BufferPool
