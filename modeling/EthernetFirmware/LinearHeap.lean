import EthernetFirmware.Arenas
import EthernetFirmware.GuardedRuns
import EthernetFirmware.RemoteConfig
import Mathlib.Logic.Function.Basic

/-!
# Linear heaps

A linear heap hands out blocks at growing offsets. The next offset is
aligned, and the end of the block is compared with the size of the heap, in
32 bits; the address is the base with the offset added. An address has `k`
bits more than 32.
-/

namespace EthernetFirmware.LinearHeap

open RemoteConfig GuardedRuns Arenas Function

/-- `APP_MEM_HEAP_MAX`. -/
def heapMax : ℕ := 3

/-- `APP_MEM_HEAP_FLAGS_TYPE_LINEAR_ALLOCATE`. -/
def heapFlagsTypeLinearAllocate : U32 := 1

/-- `APP_MEM_ALIGN_MIN_BYTES`. -/
def alignMinBytes : U32 := 256

/-- `uintptr_t`, and a pointer; zero is `NULL`. -/
abbrev Ptr (k : ℕ) := BitVec (32 + k)

/-- `APP_MEM_ALIGNPTR`. -/
def alignPtr {k : ℕ} (val : Ptr k) (align : U32) : Ptr k :=
  (val + align.setWidth (32 + k) - 1) / align.setWidth (32 + k) * align.setWidth (32 + k)

/-- `APP_MEM_ALIGN32`. -/
def align32 (val align : U32) : U32 := (val + align - 1) / align * align

/-- `app_mem_heap_prm_t`. -/
structure HeapPrm (k : ℕ) where
  /-- Base address. -/
  base : Ptr k
  /-- Size in bytes. -/
  size : U32
  /-- Flags. -/
  flags : U32

/-- The heap is a linear one. -/
def HeapPrm.linear {k : ℕ} (prm : HeapPrm k) : Prop :=
  prm.flags &&& heapFlagsTypeLinearAllocate ≠ 0

instance {k : ℕ} (prm : HeapPrm k) : Decidable prm.linear := inferInstanceAs (Decidable (_ ≠ _))

/-- `app_mem_heap_obj_t`. -/
structure HeapObj (k : ℕ) (η : Type*) where
  /-- Set where a heap is specified. -/
  isValid : Bool
  /-- The heap of the operating system, for other than linear heaps. -/
  rtosHeapHandle : Option η
  /-- Offset of the next block. -/
  allocOffset : U32
  /-- Parameters. -/
  heapPrm : HeapPrm k

/-- `g_app_mem_obj`. -/
abbrev Mem (k : ℕ) (η : Type*) := Fin heapMax → HeapObj k η

variable {k : ℕ} {η : Type*}

/-- One round of `appMemInit`, for the parameters and the object of a heap;
the first argument is `HeapP_create`. -/
def initHeap (create : Ptr k → U32 → Option η) (prm : HeapPrm k) (obj : HeapObj k η) :
    HeapObj k η :=
  let obj := { obj with isValid := false, allocOffset := 0, rtosHeapHandle := none }
  if prm.base = 0 ∨ prm.size = 0 then obj
  else
    let obj := { obj with heapPrm := prm, isValid := true }
    if prm.linear then { obj with allocOffset := 0 }
    else
      let buf := alignPtr prm.base alignMinBytes
      let size := align32 prm.size alignMinBytes
      { obj with rtosHeapHandle := create buf size,
                 heapPrm := { prm with base := buf, size := size } }

/-- `appMemInit`. -/
def appMemInit (create : Ptr k → U32 → Option η) (prm : Fin heapMax → HeapPrm k) (g : Mem k η) :
    Status × Mem k η :=
  (0,fun i => initHeap create (prm i) (g i))

/-- The body of `appMemAlloc` for a heap; the first argument is `HeapP_alloc`. -/
def allocFrom (heapAlloc : η → U32 → Ptr k) (size align : U32) (obj : HeapObj k η) :
    Ptr k × HeapObj k η :=
  if obj.isValid then
    if obj.heapPrm.linear then
      let offset := align32 obj.allocOffset align
      if offset + size ≤ obj.heapPrm.size then
        (obj.heapPrm.base + offset.setWidth (32 + k),{ obj with allocOffset := offset + size })
      else (0,obj)
    else
      match obj.rtosHeapHandle with
      | some handle => (heapAlloc handle (align32 size alignMinBytes),obj)
      | none => (0,obj)
  else (0,obj)

/-- `appMemAlloc`. -/
def appMemAlloc (heapAlloc : η → U32 → Ptr k) (heapId size align : U32) (g : Mem k η) :
    Ptr k × Mem k η :=
  if h : heapId.toNat < heapMax ∧ size ≠ 0 then
    let result := allocFrom heapAlloc size align (g ⟨heapId.toNat,h.1⟩)
    (result.1,update g ⟨heapId.toNat,h.1⟩ result.2)
  else (0,g)

/-- A call of `appMemAlloc`. -/
structure Call (k : ℕ) (η : Type*) where
  /-- What `HeapP_alloc` returns. -/
  heapAlloc : η → U32 → Ptr k
  /-- The heap. -/
  heapId : U32
  /-- Number of bytes. -/
  size : U32
  /-- Alignment. -/
  align : U32
  /-- Nothing is divided by zero. -/
  align_pos : 0 < align.toNat

/-- `appMemAlloc` for a call. -/
def alloc (g : Mem k η) (c : Call k η) : Ptr k × Mem k η :=
  appMemAlloc c.heapAlloc c.heapId c.size c.align g

/-- A block that was returned. -/
structure Returned where
  /-- The block. -/
  block : Block
  /-- The alignment asked for. -/
  align : ℕ

/-- The heaps, and the blocks that one of them returned. -/
structure State (k : ℕ) (η : Type*) where
  /-- The heaps. -/
  mem : Mem k η
  /-- The blocks, in order. -/
  returned : List Returned

/-- A call; pointers other than `NULL` of the heap watched are noted. -/
def step (id : Fin heapMax) (s : State k η) (c : Call k η) : State k η :=
  let ptr := (alloc s.mem c).1
  ⟨(alloc s.mem c).2,
    if c.heapId.toNat = id.val ∧ ptr ≠ 0 then
      s.returned ++ [⟨⟨ptr.toNat,c.size.toNat⟩,c.align.toNat⟩]
    else s.returned⟩

/-- The heaps after `appMemInit`. -/
def start (create : Ptr k → U32 → Option η) (prm : Fin heapMax → HeapPrm k) (g : Mem k η) :
    State k η :=
  ⟨(appMemInit create prm g).2,[]⟩

/-- The blocks returned are as asked for. -/
structure BlocksOk (prm : HeapPrm k) (returned : List Returned) : Prop where
  /-- Each is aligned. -/
  aligned : ∀ r ∈ returned, r.align ∣ r.block.addr
  /-- Each lies inside of the heap, and no two overlap. -/
  packed : Packed prm.base.toNat (prm.base.toNat + prm.size.toNat) (returned.map Returned.block)

/-- The block from the next aligned offset on lies within the heap, without
any overflow. -/
def Fits (prm : HeapPrm k) (obj : HeapObj k η) (c : Call k η) : Prop :=
  alignUp obj.allocOffset.toNat c.align.toNat + c.size.toNat ≤ prm.size.toNat

instance (prm : HeapPrm k) (obj : HeapObj k η) (c : Call k η) : Decidable (Fits prm obj c) :=
  inferInstanceAs (Decidable (_ ≤ _))

/-- A call for the heap that would not fit returns `NULL` and leaves the
offset. -/
def RefusalOk (id : Fin heapMax) (prm : HeapPrm k) (s : State k η) (c : Call k η) : Prop :=
  c.heapId.toNat = id.val → ¬ Fits prm (s.mem id) c →
    (alloc s.mem c).1 = 0 ∧ ((step id s c).mem id).allocOffset = (s.mem id).allocOffset

/-- The condition on a call in the state before it, for a heap of the given
parameters. Where the offset and the alignment exceed 32 bits the block must
be larger than the heap. A block that fits must be aligned with the base and
lie in the address space, or start where it ends. One that does not fit must
not fit when its end wraps either, unless nothing is returned or changed. -/
def Sound (prm : HeapPrm k) (obj : HeapObj k η) (c : Call k η) : Prop :=
  let offset := obj.allocOffset.toNat
  let aligned := alignUp offset c.align.toNat
  if 2 ^ 32 < offset + c.align.toNat then prm.size.toNat < c.size.toNat
  else if Fits prm obj c then
    prm.base.toNat + aligned = 2 ^ (32 + k) ∨
      prm.base.toNat + aligned < 2 ^ (32 + k) ∧ c.align.toNat ∣ prm.base.toNat
  else
    aligned + c.size.toNat < 2 ^ 32 ∨ prm.size.toNat < aligned + c.size.toNat - 2 ^ 32 ∨
      prm.base.toNat + aligned = 2 ^ (32 + k) ∧ aligned + c.size.toNat = 2 ^ 32 + offset

/-- The condition on the calls that reach a valid heap. -/
def SoundCall (id : Fin heapMax) (prm : HeapPrm k) (s : State k η) (c : Call k η) : Prop :=
  c.heapId.toNat = id.val → (s.mem id).isValid = true → 0 < c.size.toNat →
    Sound prm (s.mem id) c

section Numbers

variable {v a : U32} {o z end' : ℕ}

/-- The offset that the code aligns to. -/
def codeOffset (offset align : ℕ) : ℕ :=
  if 2 ^ 32 < offset + align then 0 else alignUp offset align

theorem toNat_align32 (ha : 0 < a.toNat) : (align32 v a).toNat = codeOffset v.toNat a.toNat := by
  have hv := v.isLt
  have halign := a.isLt
  have hone : (1 : U32).toNat = 1 := rfl
  have hsum : (v + a - 1).toNat = (v.toNat + a.toNat - 1) % 2 ^ 32 := by
    rw [BitVec.toNat_sub,BitVec.toNat_add,hone]
    omega
  have hle : (v.toNat + a.toNat - 1) % 2 ^ 32 / a.toNat * a.toNat ≤
      (v.toNat + a.toNat - 1) % 2 ^ 32 := Nat.div_mul_le_self _ _
  have hvalue : (align32 v a).toNat =
      (v.toNat + a.toNat - 1) % 2 ^ 32 / a.toNat * a.toNat := by
    unfold align32
    rw [BitVec.toNat_mul,BitVec.toNat_udiv,hsum,Nat.mod_eq_of_lt (by omega)]
  rw [hvalue]
  unfold codeOffset
  split_ifs with hwrap
  · -- the remainder of an overflow is less than the alignment
    rw [Nat.div_eq_of_lt (by omega),Nat.zero_mul]
  · rw [Nat.mod_eq_of_lt (by omega)]
    rfl

/-- The end of the block as the code computes it. -/
def codeEnd (offset align size : ℕ) : ℕ := (codeOffset offset align + size) % 2 ^ 32

theorem toNat_end {z : U32} (ha : 0 < a.toNat) :
    (align32 v a + z).toNat = codeEnd v.toNat a.toNat z.toNat := by
  rw [BitVec.toNat_add,toNat_align32 ha]
  rfl

/-- Offsets of 32 bits lie in the address space. -/
theorem two_pow_le (k : ℕ) : 2 ^ 32 ≤ 2 ^ (32 + k) :=
  Nat.pow_le_pow_right (Nat.succ_pos 1) (Nat.le_add_right 32 k)

theorem toNat_widen (v : U32) (k : ℕ) : (v.setWidth (32 + k)).toNat = v.toNat := by
  rw [BitVec.toNat_setWidth]
  exact Nat.mod_eq_of_lt (lt_of_lt_of_le v.isLt (two_pow_le k))

/-- An offset that the code aligns without overflow fits 32 bits. -/
theorem alignUp_lt_of_codeOffset (ha : 0 < a.toNat)
    (hoffset : codeOffset v.toNat a.toNat = alignUp v.toNat a.toNat) :
    alignUp v.toNat a.toNat < 2 ^ 32 := by
  rw [← hoffset,← toNat_align32 ha]
  exact BitVec.isLt _

end Numbers

section Steps

variable {id : Fin heapMax} {prm : HeapPrm k} {s : State k η} {c : Call k η}

/-- The call is one for the valid heap watched. -/
structure Reaches (id : Fin heapMax) (s : State k η) (c : Call k η) : Prop where
  /-- It names the heap. -/
  heapId : c.heapId.toNat = id.val
  /-- The heap is valid. -/
  valid : (s.mem id).isValid = true
  /-- Something is asked for. -/
  size : 0 < c.size.toNat

/-- Nothing is returned from the heap or changed in it. -/
structure Idle (id : Fin heapMax) (s : State k η) (c : Call k η) : Prop where
  /-- The heap is the same. -/
  obj : (step id s c).mem id = s.mem id
  /-- `NULL` is returned from it. -/
  ptr : c.heapId.toNat = id.val → (alloc s.mem c).1 = 0
  /-- No block is noted. -/
  returned : (step id s c).returned = s.returned

/-- A block is taken from the heap. -/
structure Served (id : Fin heapMax) (s : State k η) (c : Call k η) : Prop where
  /-- The heap but for the offset. -/
  obj : ∃ offset, (step id s c).mem id = { s.mem id with allocOffset := offset }
  /-- The offset is the end of the block. -/
  offset : ((step id s c).mem id).allocOffset.toNat =
    codeEnd (s.mem id).allocOffset.toNat c.align.toNat c.size.toNat
  /-- The address is the base with the offset. -/
  ptr : (alloc s.mem c).1.toNat =
    ((s.mem id).heapPrm.base.toNat + codeOffset (s.mem id).allocOffset.toNat c.align.toNat) %
      2 ^ (32 + k)
  /-- The block is noted where the address is not `NULL`. -/
  returned : (step id s c).returned =
    if (alloc s.mem c).1 = 0 then s.returned
    else s.returned ++ [⟨⟨(alloc s.mem c).1.toNat,c.size.toNat⟩,c.align.toNat⟩]

theorem alloc_of_ne {g : Mem k η} (hid : c.heapId.toNat ≠ id.val) : (alloc g c).2 id = g id := by
  unfold alloc appMemAlloc
  split_ifs with h
  · exact update_of_ne (fun heq => hid (congrArg Fin.val heq).symm) _ _
  · rfl

theorem alloc_of_size_zero {g : Mem k η} (hsize : c.size = 0) : alloc g c = (0,g) := by
  unfold alloc appMemAlloc
  exact dif_neg fun h => h.2 hsize

theorem alloc_of_eq {g : Mem k η} (hid : c.heapId.toNat = id.val) (hsize : c.size ≠ 0) :
    (alloc g c).1 = (allocFrom c.heapAlloc c.size c.align (g id)).1 ∧
      (alloc g c).2 id = (allocFrom c.heapAlloc c.size c.align (g id)).2 := by
  have hheap : c.heapId.toNat < heapMax := by
    rw [hid]
    exact id.isLt
  have hindex : (⟨c.heapId.toNat,hheap⟩ : Fin heapMax) = id := Fin.ext hid
  unfold alloc appMemAlloc
  rw [dif_pos ⟨hheap,hsize⟩]
  dsimp only
  rw [hindex,update_self]
  exact ⟨rfl,rfl⟩

theorem idle_of_eq (hmem : (alloc s.mem c).2 id = s.mem id)
    (hptr : c.heapId.toNat = id.val → (alloc s.mem c).1 = 0) : Idle id s c where
  obj := hmem
  ptr := hptr
  returned := if_neg fun h => h.2 (hptr h.1)

/-- A call that does not reach the heap leaves it alone. -/
theorem idle_of_not_reaches (h : ¬ Reaches id s c) : Idle id s c := by
  by_cases hid : c.heapId.toNat = id.val
  · by_cases hsize : c.size = 0
    · have hnothing := alloc_of_size_zero (g := s.mem) hsize
      exact idle_of_eq (by rw [hnothing]) fun _ => by rw [hnothing]
    · have hvalid : ¬ (s.mem id).isValid = true := by
        refine fun hvalid => h ⟨hid,hvalid,Nat.pos_of_ne_zero fun hzero => hsize ?_⟩
        exact BitVec.eq_of_toNat_eq hzero
      obtain ⟨hptr,hmem⟩ := alloc_of_eq (g := s.mem) hid hsize
      have hfrom : allocFrom c.heapAlloc c.size c.align (s.mem id) = (0,s.mem id) :=
        if_neg hvalid
      rw [hfrom] at hptr hmem
      exact idle_of_eq hmem fun _ => hptr
  · exact idle_of_eq (alloc_of_ne hid) fun h => absurd h hid

theorem Reaches.size_ne (h : Reaches id s c) : c.size ≠ 0 := by
  intro hzero
  have hpos := h.size
  rw [hzero] at hpos
  exact Nat.lt_irrefl _ hpos

theorem served_of_eq (hid : c.heapId.toNat = id.val)
    (hmem : (alloc s.mem c).2 id = { s.mem id with
      allocOffset := align32 (s.mem id).allocOffset c.align + c.size })
    (hptr : (alloc s.mem c).1 = (s.mem id).heapPrm.base +
      (align32 (s.mem id).allocOffset c.align).setWidth (32 + k)) : Served id s c where
  obj := ⟨_,hmem⟩
  offset := by
    have hmem : (step id s c).mem id = _ := hmem
    rw [hmem]
    exact toNat_end c.align_pos
  ptr := by rw [hptr,BitVec.toNat_add,toNat_widen,toNat_align32 c.align_pos]
  returned := by
    unfold step
    dsimp only
    split_ifs with hnoted hnull hnull
    · exact absurd hnull hnoted.2
    · rfl
    · rfl
    · exact absurd ⟨hid,hnull⟩ hnoted

/-- A call that reaches a linear heap takes a block exactly when the end, as
the code computes it, lies within the heap. -/
theorem idle_or_served (h : Reaches id s c) (hlinear : (s.mem id).heapPrm.linear) :
    ((s.mem id).heapPrm.size.toNat <
        codeEnd (s.mem id).allocOffset.toNat c.align.toNat c.size.toNat ∧ Idle id s c) ∨
      (codeEnd (s.mem id).allocOffset.toNat c.align.toNat c.size.toNat ≤
        (s.mem id).heapPrm.size.toNat ∧ Served id s c) := by
  obtain ⟨hptr,hmem⟩ := alloc_of_eq (g := s.mem) h.heapId h.size_ne
  unfold allocFrom at hptr hmem
  rw [if_pos h.valid,if_pos hlinear] at hptr hmem
  dsimp only at hptr hmem
  rw [← toNat_end c.align_pos]
  by_cases hfits : align32 (s.mem id).allocOffset c.align + c.size ≤ (s.mem id).heapPrm.size
  · rw [if_pos hfits] at hptr hmem
    exact Or.inr ⟨hfits,served_of_eq h.heapId hmem hptr⟩
  · rw [if_neg hfits] at hptr hmem
    exact Or.inl ⟨Nat.lt_of_not_le hfits,idle_of_eq hmem fun _ => hptr⟩

/-- The invariant: what was returned is packed below the offset, from the
base on. -/
structure Kept (id : Fin heapMax) (prm : HeapPrm k) (s : State k η) : Prop where
  /-- A valid heap has the parameters given, and a base. -/
  valid : (s.mem id).isValid = true → (s.mem id).heapPrm = prm ∧ 0 < prm.base.toNat
  /-- The offset lies within the heap. -/
  offset : (s.mem id).allocOffset.toNat ≤ prm.size.toNat
  /-- The blocks are aligned. -/
  aligned : ∀ r ∈ s.returned, r.align ∣ r.block.addr
  /-- They are packed below the offset. -/
  packed : Packed prm.base.toNat (prm.base.toNat + (s.mem id).allocOffset.toNat)
    (s.returned.map Returned.block)
  /-- Where the offset has moved, the first block starts at the base. -/
  first : 0 < (s.mem id).allocOffset.toNat →
    ∃ r ∈ s.returned, r.block.addr = prm.base.toNat ∧ 0 < r.block.size

theorem Kept.blocksOk (h : Kept id prm s) : BlocksOk prm s.returned where
  aligned := h.aligned
  packed := h.packed.mono (Nat.add_le_add_left h.offset _)

theorem Kept.of_idle (h : Kept id prm s) (hidle : Idle id s c) : Kept id prm (step id s c) where
  valid := by rw [hidle.obj]; exact h.valid
  offset := by rw [hidle.obj]; exact h.offset
  aligned := by rw [hidle.returned]; exact h.aligned
  packed := by rw [hidle.obj,hidle.returned]; exact h.packed
  first := by rw [hidle.obj,hidle.returned]; exact h.first

theorem refusalOk_of_idle (h : Idle id s c) : RefusalOk id prm s c := by
  intro hid _
  rw [h.obj]
  exact ⟨h.ptr hid,rfl⟩

/-- An address fits the pointer where it lies in the address space. -/
theorem Served.ptr_of_lt (h : Served id s c) {offset : ℕ}
    (hoffset : codeOffset (s.mem id).allocOffset.toNat c.align.toNat = offset)
    (hlt : (s.mem id).heapPrm.base.toNat + offset < 2 ^ (32 + k)) :
    (alloc s.mem c).1.toNat = (s.mem id).heapPrm.base.toNat + offset := by
  rw [h.ptr,hoffset,Nat.mod_eq_of_lt hlt]

/-- A pointer other than `NULL` is noted. -/
theorem Served.returned_of_pos (h : Served id s c) (hpos : 0 < (alloc s.mem c).1.toNat) :
    (step id s c).returned =
      s.returned ++ [⟨⟨(alloc s.mem c).1.toNat,c.size.toNat⟩,c.align.toNat⟩] := by
  rw [h.returned,if_neg]
  intro hzero
  rw [hzero] at hpos
  exact Nat.lt_irrefl _ hpos

/-- After an overflow of the offset the base is handed out again. -/
theorem not_blocksOk_of_wrapped (hkept : Kept id prm s) (hreach : Reaches id s c)
    (hserved : Served id s c)
    (hwrap : 2 ^ 32 < (s.mem id).allocOffset.toNat + c.align.toNat) :
    ¬ BlocksOk prm (step id s c).returned := by
  intro hok
  have halign := c.align.isLt
  obtain ⟨hprm,hbase⟩ := hkept.valid hreach.valid
  have hbase_lt := prm.base.isLt
  obtain ⟨r,hr,haddr,hsize⟩ := hkept.first (by omega)
  have hptr := hserved.ptr_of_lt (if_pos hwrap) (by rw [hprm]; exact hbase_lt)
  rw [hprm,Nat.add_zero] at hptr
  have happart := hok.packed.apart
  rw [hserved.returned_of_pos (by omega),List.map_append] at happart
  have hpair := (List.pairwise_append.mp happart).2.2 r.block (List.mem_map_of_mem hr) _
    (List.mem_singleton_self _)
  exact not_apart_of_addr_eq (haddr.trans hptr.symm) hsize hreach.size hpair

section Fitting

/-- The offset that the code aligns to is the aligned one. -/
abbrev NoWrap (id : Fin heapMax) (s : State k η) (c : Call k η) : Prop :=
  codeOffset (s.mem id).allocOffset.toNat c.align.toNat =
    alignUp (s.mem id).allocOffset.toNat c.align.toNat

/-- The address after the next aligned offset. -/
def alignedAddr (id : Fin heapMax) (prm : HeapPrm k) (s : State k η) (c : Call k η) : ℕ :=
  prm.base.toNat + alignUp (s.mem id).allocOffset.toNat c.align.toNat

/-- The end of a block that fits does not overflow. -/
theorem codeEnd_of_fits (hoffset : NoWrap id s c) (hfits : Fits prm (s.mem id) c) :
    codeEnd (s.mem id).allocOffset.toNat c.align.toNat c.size.toNat =
      alignUp (s.mem id).allocOffset.toNat c.align.toNat + c.size.toNat := by
  unfold codeEnd
  rw [hoffset]
  exact Nat.mod_eq_of_lt (lt_of_le_of_lt hfits prm.size.isLt)

/-- The heap after a block that fits is kept where its blocks are. -/
theorem Served.kept (hkept : Kept id prm s) (hserved : Served id s c)
    (hoffset : NoWrap id s c) (hfits : Fits prm (s.mem id) c)
    (haligned : ∀ r ∈ (step id s c).returned, r.align ∣ r.block.addr)
    (hpacked : Packed prm.base.toNat (prm.base.toNat +
        (alignUp (s.mem id).allocOffset.toNat c.align.toNat + c.size.toNat))
      ((step id s c).returned.map Returned.block))
    (hfirst : ∃ r ∈ (step id s c).returned,
      r.block.addr = prm.base.toNat ∧ 0 < r.block.size) :
    Kept id prm (step id s c) := by
  have hend := hserved.offset
  rw [codeEnd_of_fits hoffset hfits] at hend
  constructor
  · obtain ⟨offset,hobj⟩ := hserved.obj
    rw [hobj]
    exact hkept.valid
  · rw [hend]
    exact hfits
  · exact haligned
  · rw [hend]
    exact hpacked
  · exact fun _ => hfirst

variable (hkept : Kept id prm s) (hreach : Reaches id s c) (hserved : Served id s c)
  (hoffset : NoWrap id s c) (hfits : Fits prm (s.mem id) c)
include hkept hreach hserved hoffset

/-- In the address space the block starts at the aligned address. -/
theorem returned_of_space (hspace : alignedAddr id prm s c < 2 ^ (32 + k)) :
    (step id s c).returned =
      s.returned ++ [⟨⟨alignedAddr id prm s c,c.size.toNat⟩,c.align.toNat⟩] := by
  obtain ⟨hprm,hbase⟩ := hkept.valid hreach.valid
  have hptr := hserved.ptr_of_lt hoffset (by rw [hprm]; exact hspace)
  rw [hprm] at hptr
  rw [hserved.returned_of_pos (by omega),hptr]
  rfl

/-- Where the address space ends the address is `NULL`. -/
theorem ptr_eq_zero_iff : (alloc s.mem c).1 = 0 ↔ alignedAddr id prm s c = 2 ^ (32 + k) := by
  obtain ⟨hprm,hbase⟩ := hkept.valid hreach.valid
  have hbase_lt := prm.base.isLt
  have hspace := two_pow_le k
  have hlt := alignUp_lt_of_codeOffset c.align_pos hoffset
  have hptr := hserved.ptr
  rw [hprm,hoffset] at hptr
  unfold alignedAddr
  rw [← BitVec.toNat_inj,hptr]
  change _ % _ = 0 ↔ _
  rcases Nat.lt_or_ge
    (prm.base.toNat + alignUp (s.mem id).allocOffset.toNat c.align.toNat) (2 ^ (32 + k))
    with hbelow | habove
  · rw [Nat.mod_eq_of_lt hbelow]
    omega
  · rw [Nat.mod_eq_sub_mod habove,Nat.mod_eq_of_lt (by omega)]
    omega

include hfits

/-- A block in the address space, aligned with the base, is as asked for. -/
theorem kept_of_aligned (hspace : alignedAddr id prm s c < 2 ^ (32 + k))
    (halign : c.align.toNat ∣ prm.base.toNat) : Kept id prm (step id s c) := by
  have hreturned := returned_of_space hkept hreach hserved hoffset hspace
  refine hserved.kept hkept hoffset hfits ?_ ?_ ?_
  · intro r hr
    rw [hreturned,List.mem_append,List.mem_singleton] at hr
    rcases hr with hr | rfl
    · exact hkept.aligned r hr
    · exact (Nat.dvd_add_right halign).mpr (dvd_alignUp _ _)
  · rw [hreturned,List.map_append]
    refine hkept.packed.concat (Nat.le_add_right _ _) ⟨?_,?_⟩
    · exact Nat.add_le_add_left (le_alignUp c.align_pos) _
    · exact Nat.le_of_eq (Nat.add_assoc _ _ _)
  · rw [hreturned]
    rcases Nat.eq_zero_or_pos (s.mem id).allocOffset.toNat with hzero | hpos
    · refine ⟨_,List.mem_append_right _ (List.mem_singleton_self _),?_,hreach.size⟩
      unfold alignedAddr
      rw [hzero,alignUp_zero c.align_pos]
      rfl
    · obtain ⟨r,hr,haddr⟩ := hkept.first hpos
      exact ⟨r,List.mem_append_left _ hr,haddr⟩

/-- A block where the address space ends is lost, but breaks nothing. -/
theorem kept_of_null (hnull : alignedAddr id prm s c = 2 ^ (32 + k)) :
    Kept id prm (step id s c) := by
  have hreturned : (step id s c).returned = s.returned := by
    rw [hserved.returned,
      if_pos ((ptr_eq_zero_iff hkept hreach hserved hoffset).mpr hnull)]
  refine hserved.kept hkept hoffset hfits ?_ ?_ ?_
  · rw [hreturned]
    exact hkept.aligned
  · rw [hreturned]
    refine hkept.packed.mono (Nat.add_le_add_left ?_ _)
    exact le_trans (le_alignUp c.align_pos) (Nat.le_add_right _ _)
  · rw [hreturned]
    refine hkept.first (Nat.pos_of_ne_zero fun hzero => ?_)
    have hbase_lt := prm.base.isLt
    unfold alignedAddr at hnull
    rw [hzero,alignUp_zero c.align_pos] at hnull
    omega

/-- A block that fits is as asked for exactly where the base is aligned and
the block lies in the address space, or starts where that ends. -/
theorem blocksOk_iff_of_fits :
    BlocksOk prm (step id s c).returned ↔
      (alignedAddr id prm s c = 2 ^ (32 + k) ∨
        alignedAddr id prm s c < 2 ^ (32 + k) ∧ c.align.toNat ∣ prm.base.toNat) := by
  rcases Nat.lt_trichotomy (alignedAddr id prm s c) (2 ^ (32 + k)) with hlt | heq | hgt
  · constructor
    · intro hok
      refine Or.inr ⟨hlt,?_⟩
      rw [returned_of_space hkept hreach hserved hoffset hlt] at hok
      have haligned := hok.aligned _ (List.mem_append_right _ (List.mem_singleton_self _))
      exact (Nat.dvd_add_left (dvd_alignUp _ _)).mp haligned
    · rintro (heq | ⟨-,halign⟩)
      · exact absurd heq (Nat.ne_of_lt hlt)
      · exact (kept_of_aligned hkept hreach hserved hoffset hfits hlt halign).blocksOk
  · exact iff_of_true (kept_of_null hkept hreach hserved hoffset hfits heq).blocksOk (Or.inl heq)
  · -- the address wraps below the base
    refine iff_of_false ?_ (by omega)
    intro hok
    obtain ⟨hprm,hbase⟩ := hkept.valid hreach.valid
    have hbase_lt := prm.base.isLt
    have hsize := prm.size.isLt
    have hspace := two_pow_le k
    have hfits : _ ≤ _ := hfits
    have hptr : (alloc s.mem c).1.toNat = alignedAddr id prm s c - 2 ^ (32 + k) := by
      have hptr := hserved.ptr
      unfold alignedAddr at hgt ⊢
      rw [hptr,hoffset,hprm,Nat.mod_eq_sub_mod (Nat.le_of_lt hgt),Nat.mod_eq_of_lt (by omega)]
    unfold alignedAddr at hgt hptr
    have hreturned := hserved.returned_of_pos (by omega)
    have hwithin := hok.packed.within ⟨(alloc s.mem c).1.toNat,c.size.toNat⟩ (by
      rw [hreturned,List.map_append]
      exact List.mem_append_right _ (List.mem_singleton_self _))
    have hstart : prm.base.toNat ≤ (alloc s.mem c).1.toNat := hwithin.1
    omega

end Fitting

/-- Where the end wraps, the refusal is right only if nothing is returned and
the offset comes back to where it was. -/
theorem refusalOk_iff_of_over (hkept : Kept id prm s) (hreach : Reaches id s c)
    (hserved : Served id s c) (hoffset : NoWrap id s c) (hover : ¬ Fits prm (s.mem id) c)
    (hwraps : 2 ^ 32 ≤ alignUp (s.mem id).allocOffset.toNat c.align.toNat + c.size.toNat) :
    RefusalOk id prm s c ↔ alignedAddr id prm s c = 2 ^ (32 + k) ∧
      alignUp (s.mem id).allocOffset.toNat c.align.toNat + c.size.toNat =
        2 ^ 32 + (s.mem id).allocOffset.toNat := by
  have hsize := c.size.isLt
  have hlt := alignUp_lt_of_codeOffset c.align_pos hoffset
  have hend := hserved.offset
  unfold codeEnd at hend
  rw [hoffset,Nat.mod_eq_sub_mod hwraps,Nat.mod_eq_of_lt (by omega)] at hend
  have hsame : ((step id s c).mem id).allocOffset = (s.mem id).allocOffset ↔
      alignUp (s.mem id).allocOffset.toNat c.align.toNat + c.size.toNat =
        2 ^ 32 + (s.mem id).allocOffset.toNat := by
    rw [← BitVec.toNat_inj,hend]
    omega
  unfold RefusalOk
  rw [← ptr_eq_zero_iff hkept hreach hserved hoffset,← hsame]
  exact ⟨fun h => h hreach.heapId hover,fun h _ _ => h⟩

/-- A refusal is idle. -/
theorem idle_of_refusalOk (hreach : Reaches id s c) (hserved : Served id s c)
    (hover : ¬ Fits prm (s.mem id) c) (hrefusal : RefusalOk id prm s c) : Idle id s c := by
  obtain ⟨hnull,hsame⟩ := hrefusal hreach.heapId hover
  obtain ⟨offset,hobj⟩ := hserved.obj
  rw [hobj] at hsame
  have hsame : offset = (s.mem id).allocOffset := hsame
  refine idle_of_eq ?_ fun _ => hnull
  rw [hsame] at hobj
  exact hobj

section Exact

variable (hlinear : prm.linear) (hkept : Kept id prm s) (hreach : Reaches id s c)
include hlinear hkept hreach

/-- The code's test, for the parameters given. -/
theorem idle_or_served_of_kept :
    (prm.size.toNat < codeEnd (s.mem id).allocOffset.toNat c.align.toNat c.size.toNat ∧
        Idle id s c) ∨
      (codeEnd (s.mem id).allocOffset.toNat c.align.toNat c.size.toNat ≤ prm.size.toNat ∧
        Served id s c) := by
  obtain ⟨hprm,-⟩ := hkept.valid hreach.valid
  have hcases := idle_or_served hreach (by rw [hprm]; exact hlinear)
  rwa [hprm] at hcases

theorem exact_of_wrap (hwrap : 2 ^ 32 < (s.mem id).allocOffset.toNat + c.align.toNat) :
    (BlocksOk prm (step id s c).returned ∧ RefusalOk id prm s c ↔
        prm.size.toNat < c.size.toNat) ∧
      (prm.size.toNat < c.size.toNat → Kept id prm (step id s c)) := by
  have hend : codeEnd (s.mem id).allocOffset.toNat c.align.toNat c.size.toNat =
      c.size.toNat := by
    unfold codeEnd codeOffset
    rw [if_pos hwrap,Nat.zero_add,Nat.mod_eq_of_lt c.size.isLt]
  have hcases := idle_or_served_of_kept hlinear hkept hreach
  rw [hend] at hcases
  rcases hcases with ⟨hlt,hidle⟩ | ⟨hle,hserved⟩
  · have hkept' := hkept.of_idle hidle
    exact ⟨iff_of_true ⟨hkept'.blocksOk,refusalOk_of_idle hidle⟩ hlt,fun _ => hkept'⟩
  · have hnot : ¬ prm.size.toNat < c.size.toNat := Nat.not_lt_of_le hle
    refine ⟨iff_of_false ?_ hnot,fun hlt => absurd hlt hnot⟩
    exact fun h => not_blocksOk_of_wrapped hkept hreach hserved hwrap h.1

theorem exact_of_fits (hoffset : NoWrap id s c) (hfits : Fits prm (s.mem id) c) :
    (BlocksOk prm (step id s c).returned ∧ RefusalOk id prm s c ↔
        (alignedAddr id prm s c = 2 ^ (32 + k) ∨
          alignedAddr id prm s c < 2 ^ (32 + k) ∧ c.align.toNat ∣ prm.base.toNat)) ∧
      ((alignedAddr id prm s c = 2 ^ (32 + k) ∨
          alignedAddr id prm s c < 2 ^ (32 + k) ∧ c.align.toNat ∣ prm.base.toNat) →
        Kept id prm (step id s c)) := by
  have hcases := idle_or_served_of_kept hlinear hkept hreach
  rw [codeEnd_of_fits hoffset hfits] at hcases
  rcases hcases with ⟨hlt,-⟩ | ⟨-,hserved⟩
  · exact absurd hfits (Nat.not_le_of_lt hlt)
  · have hrefusal : RefusalOk id prm s c := fun _ hover => absurd hfits hover
    rw [and_iff_left hrefusal]
    refine ⟨blocksOk_iff_of_fits hkept hreach hserved hoffset hfits,?_⟩
    rintro (hnull | ⟨hspace,halign⟩)
    · exact kept_of_null hkept hreach hserved hoffset hfits hnull
    · exact kept_of_aligned hkept hreach hserved hoffset hfits hspace halign

theorem exact_of_over (hoffset : NoWrap id s c) (hover : ¬ Fits prm (s.mem id) c) :
    (BlocksOk prm (step id s c).returned ∧ RefusalOk id prm s c ↔
        (alignUp (s.mem id).allocOffset.toNat c.align.toNat + c.size.toNat < 2 ^ 32 ∨
          prm.size.toNat <
            alignUp (s.mem id).allocOffset.toNat c.align.toNat + c.size.toNat - 2 ^ 32 ∨
          alignedAddr id prm s c = 2 ^ (32 + k) ∧
            alignUp (s.mem id).allocOffset.toNat c.align.toNat + c.size.toNat =
              2 ^ 32 + (s.mem id).allocOffset.toNat)) ∧
      (RefusalOk id prm s c → Kept id prm (step id s c)) := by
  have hsize := c.size.isLt
  have hlt := alignUp_lt_of_codeOffset c.align_pos hoffset
  have hover' : prm.size.toNat <
      alignUp (s.mem id).allocOffset.toNat c.align.toNat + c.size.toNat := Nat.lt_of_not_le hover
  have hcases := idle_or_served_of_kept hlinear hkept hreach
  unfold codeEnd at hcases
  rw [hoffset] at hcases
  rcases hcases with ⟨hend,hidle⟩ | ⟨hend,hserved⟩
  · have hkept' := hkept.of_idle hidle
    refine ⟨iff_of_true ⟨hkept'.blocksOk,refusalOk_of_idle hidle⟩ (by omega),fun _ => hkept'⟩
  · have hwraps : 2 ^ 32 ≤
        alignUp (s.mem id).allocOffset.toNat c.align.toNat + c.size.toNat := by omega
    have hiff := refusalOk_iff_of_over hkept hreach hserved hoffset hover hwraps
    have hkept' : RefusalOk id prm s c → Kept id prm (step id s c) := fun hrefusal =>
      hkept.of_idle (idle_of_refusalOk hreach hserved hover hrefusal)
    refine ⟨?_,hkept'⟩
    constructor
    · exact fun h => Or.inr (Or.inr (hiff.mp h.2))
    · rintro (hbelow | habove | hback)
      · omega
      · omega
      · have hrefusal := hiff.mpr hback
        exact ⟨(hkept' hrefusal).blocksOk,hrefusal⟩

end Exact

/-- From the invariant a call is right exactly when it is sound, and keeps
the invariant then. -/
theorem step_exact (hlinear : prm.linear) (hkept : Kept id prm s) :
    (BlocksOk prm (step id s c).returned ∧ RefusalOk id prm s c ↔ SoundCall id prm s c) ∧
      (SoundCall id prm s c → Kept id prm (step id s c)) := by
  by_cases hreach : Reaches id s c
  swap
  · -- nothing happens
    have hidle := idle_of_not_reaches hreach
    have hkept' := hkept.of_idle hidle
    refine ⟨iff_of_true ⟨hkept'.blocksOk,refusalOk_of_idle hidle⟩ ?_,fun _ => hkept'⟩
    exact fun hid hvalid hsize => absurd ⟨hid,hvalid,hsize⟩ hreach
  have hsound : SoundCall id prm s c ↔ Sound prm (s.mem id) c :=
    ⟨fun h => h hreach.heapId hreach.valid hreach.size,fun h _ _ _ => h⟩
  rw [hsound]
  unfold Sound
  dsimp only
  by_cases hwrap : 2 ^ 32 < (s.mem id).allocOffset.toNat + c.align.toNat
  · rw [if_pos hwrap]
    exact exact_of_wrap hlinear hkept hreach hwrap
  rw [if_neg hwrap]
  have hoffset : NoWrap id s c := if_neg hwrap
  by_cases hfits : Fits prm (s.mem id) c
  · rw [if_pos hfits]
    exact exact_of_fits hlinear hkept hreach hoffset hfits
  · rw [if_neg hfits]
    obtain ⟨hiff,hkeep⟩ := exact_of_over hlinear hkept hreach hoffset hfits
    exact ⟨hiff,fun h => hkeep (hiff.mpr h).2⟩

end Steps

section Calls

variable {create : Ptr k → U32 → Option η} {prm : Fin heapMax → HeapPrm k} {g : Mem k η}
  {id : Fin heapMax}

theorem kept_start (create : Ptr k → U32 → Option η) (g : Mem k η)
    (hlinear : (prm id).linear) : Kept id (prm id) (start create prm g) := by
  have hobj : (start create prm g).mem id = initHeap create (prm id) (g id) := rfl
  have hoffset : (initHeap create (prm id) (g id)).allocOffset = 0 := by
    unfold initHeap
    dsimp only
    split_ifs <;> rfl
  constructor
  · intro hvalid
    rw [hobj] at hvalid ⊢
    unfold initHeap at hvalid ⊢
    dsimp only at hvalid ⊢
    split_ifs at hvalid ⊢ with hnone
    refine ⟨rfl,Nat.pos_of_ne_zero fun hzero => hnone (Or.inl ?_)⟩
    exact BitVec.eq_of_toNat_eq hzero
  · rw [hobj,hoffset]
    exact Nat.zero_le _
  · exact fun r hr => by cases hr
  · exact packed_nil
  · rw [hobj,hoffset]
    exact fun hpos => absurd hpos (Nat.lt_irrefl 0)

/-- The blocks of a linear heap are as asked for, and refusals leave it
alone, along exactly those runs whose calls are all sound. -/
theorem linear_heap_iff (create : Ptr k → U32 → Option η) (prm : Fin heapMax → HeapPrm k)
    (g : Mem k η) (id : Fin heapMax) (hlinear : (prm id).linear) (calls : List (Call k η)) :
    Along (step id) (fun s => BlocksOk (prm id) s.returned) (start create prm g) calls ∧
        Guarded (step id) (RefusalOk id (prm id)) (start create prm g) calls ↔
      Guarded (step id) (SoundCall id (prm id)) (start create prm g) calls := by
  refine along_and_guarded_iff (I := Kept id (prm id)) ?_ ?_ ?_ (kept_start create g hlinear)
  · exact fun s hkept => hkept.blocksOk
  · exact fun s c hkept hsound => (step_exact hlinear hkept).2 hsound
  · exact fun s c hkept => (step_exact hlinear hkept).1

theorem heapMax_pos : 0 < heapMax := Nat.succ_pos 2

theorem noAlign_pos : 0 < (1 : U32).toNat := Nat.succ_pos 0

/-- No heap of the operating system. -/
def noHeap (_ : Ptr 0) (_ : U32) : Option Unit := none

/-- A page at each heap. -/
def pageHeaps (_ : Fin heapMax) : HeapPrm 0 := ⟨0x70000000,4096,1⟩

/-- The heaps before `appMemInit`. -/
def noMem (_ : Fin heapMax) : HeapObj 0 Unit := ⟨false,none,0,⟨0,0,0⟩⟩

/-- A call for bytes of the first heap, of any alignment. -/
def bytesCall (size : U32) : Call 0 Unit := ⟨fun _ _ => 0,0,size,1,noAlign_pos⟩

/-- Blocks of a page, without alignment. -/
theorem linear_heap_iff_page :
    Along (step ⟨0,heapMax_pos⟩)
        (fun s => BlocksOk (pageHeaps ⟨0,heapMax_pos⟩) s.returned)
        (start noHeap pageHeaps noMem) [bytesCall 64,bytesCall 4032,bytesCall 1] ∧
      Guarded (step ⟨0,heapMax_pos⟩) (RefusalOk ⟨0,heapMax_pos⟩ (pageHeaps ⟨0,heapMax_pos⟩))
        (start noHeap pageHeaps noMem) [bytesCall 64,bytesCall 4032,bytesCall 1] := by
  have hlinear : (pageHeaps ⟨0,heapMax_pos⟩).linear := by decide
  refine (linear_heap_iff noHeap pageHeaps noMem ⟨0,heapMax_pos⟩ hlinear _).mpr ?_
  refine ⟨fun _ _ _ => ?_,fun _ _ _ => ?_,fun _ _ _ => ?_,trivial⟩
  · unfold Sound
    decide
  · unfold Sound
    decide
  · unfold Sound
    decide

/-- A block whose end wraps to the start of the heap is handed out. -/
theorem wrapped_block_exceeds_heap :
    (pageHeaps ⟨0,heapMax_pos⟩).linear ∧
      ¬ Along (step ⟨0,heapMax_pos⟩)
        (fun s => BlocksOk (pageHeaps ⟨0,heapMax_pos⟩) s.returned)
        (start noHeap pageHeaps noMem) [bytesCall 64,bytesCall 0xFFFFFFC0] := by
  refine ⟨by decide,?_⟩
  intro hrun
  have hreturned : (run (step ⟨0,heapMax_pos⟩) (start noHeap pageHeaps noMem)
      [bytesCall 64,bytesCall 0xFFFFFFC0]).returned =
        [⟨⟨0x70000000,64⟩,1⟩,⟨⟨0x70000040,0xFFFFFFC0⟩,1⟩] := rfl
  have hblocks := along_final hrun
  rw [hreturned] at hblocks
  have hend := (hblocks.packed.within ⟨0x70000040,0xFFFFFFC0⟩ (by simp)).2
  revert hend
  decide

end Calls

end EthernetFirmware.LinearHeap
