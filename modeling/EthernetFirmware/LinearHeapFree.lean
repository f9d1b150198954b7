import EthernetFirmware.LinearHeap

/-!
# Freeing blocks of linear heaps

A linear heap has no free blocks: whatever block is freed, the next one
starts at the base again. Blocks that are still in use are safe exactly as
long as a block is freed only when no other block is in use.
-/

namespace EthernetFirmware.LinearHeapFree

open RemoteConfig GuardedRuns Arenas Function LinearHeap

variable {k : ℕ} {η : Type*}

/-- The body of `appMemFree` for a heap. What `HeapP_free` does is left to
the heap of the operating system. -/
def freeIn (obj : HeapObj k η) : Status × HeapObj k η :=
  if obj.isValid then
    if obj.heapPrm.linear then (0,{ obj with allocOffset := 0 })
    else if obj.rtosHeapHandle.isSome then (0,obj)
    else (-1,obj)
  else (-1,obj)

/-- `appMemFree`. -/
def appMemFree (heapId : U32) (ptr : Ptr k) (size : U32) (g : Mem k η) : Status × Mem k η :=
  if h : heapId.toNat < heapMax ∧ ptr ≠ 0 ∧ size ≠ 0 then
    let result := freeIn (g ⟨heapId.toNat,h.1⟩)
    (result.1,update g ⟨heapId.toNat,h.1⟩ result.2)
  else (-1,g)

/-- Calls of the memory. -/
inductive MemCall (k : ℕ) (η : Type*) where
  | alloc (c : Call k η)
  | free (heapId : U32) (ptr : Ptr k) (size : U32)

/-- A call; `returned` holds the blocks in use of the heap watched. -/
def step (id : Fin heapMax) (s : State k η) : MemCall k η → State k η
  | .alloc c => LinearHeap.step id s c
  | .free heapId ptr size =>
    let result := appMemFree heapId ptr size s.mem
    ⟨result.2,
      if heapId.toNat = id.val ∧ result.1 = 0 then
        s.returned.filter fun r => r.block.addr ≠ ptr.toNat
      else s.returned⟩

/-- The blocks in use are as asked for, and stay so whatever sound call for a
block comes next. -/
def BlocksSafe (id : Fin heapMax) (prm : HeapPrm k) (s : State k η) : Prop :=
  BlocksOk prm s.returned ∧
    ∀ c, SoundCall id prm s c → BlocksOk prm (LinearHeap.step id s c).returned

/-- A call for a block is sound. -/
def SoundAlloc (id : Fin heapMax) (prm : HeapPrm k) (s : State k η) : MemCall k η → Prop
  | .alloc c => SoundCall id prm s c
  | .free _ _ _ => True

/-- A block of the heap is freed only when no other is in use. -/
def FreesLast (id : Fin heapMax) (s : State k η) : MemCall k η → Prop
  | .alloc _ => True
  | .free heapId ptr size => heapId.toNat = id.val → (s.mem id).isValid = true →
    ptr ≠ 0 → size ≠ 0 → ∀ r ∈ s.returned, r.block.addr = ptr.toNat

/-- The invariant: the blocks in use are packed below the offset, and none is
empty. -/
structure InUse (id : Fin heapMax) (prm : HeapPrm k) (s : State k η) : Prop where
  /-- The blocks are packed below the offset. -/
  kept : Kept id prm s
  /-- Each has some bytes. -/
  sizes : ∀ r ∈ s.returned, 0 < r.block.size

variable {id : Fin heapMax} {prm : HeapPrm k} {s : State k η} {heapId size : U32} {ptr : Ptr k}

/-- Blocks that are packed and taken soundly are safe. -/
theorem InUse.blocksSafe (h : InUse id prm s) (hlinear : prm.linear) : BlocksSafe id prm s :=
  ⟨h.kept.blocksOk,fun _ hsound =>
    ((LinearHeap.step_exact hlinear h.kept).2 hsound).blocksOk⟩

/-- A sound call for a block keeps the invariant. -/
theorem InUse.alloc (h : InUse id prm s) (hlinear : prm.linear) {c : Call k η}
    (hsound : SoundCall id prm s c) : InUse id prm (step id s (.alloc c)) := by
  refine ⟨(LinearHeap.step_exact hlinear h.kept).2 hsound,fun r hr => ?_⟩
  have hr : r ∈ (LinearHeap.step id s c).returned := hr
  unfold LinearHeap.step at hr
  dsimp only at hr
  split at hr
  · next hnoted =>
    rcases List.mem_append.mp hr with hr | hr
    · exact h.sizes r hr
    · rw [List.mem_singleton] at hr
      rw [hr]
      refine Nat.pos_of_ne_zero fun hzero => hnoted.2 ?_
      have hsize : c.size = 0 := BitVec.eq_of_toNat_eq hzero
      rw [alloc_of_size_zero hsize]
  · exact h.sizes r hr

/-- A call for another heap leaves the heap and its blocks. -/
theorem free_of_ne (hid : heapId.toNat ≠ id.val) :
    (step id s (.free heapId ptr size)).mem id = s.mem id ∧
      (step id s (.free heapId ptr size)).returned = s.returned := by
  constructor
  · unfold step appMemFree
    dsimp only
    split_ifs with hcall
    · exact update_of_ne (fun heq => hid (congrArg Fin.val heq).symm) _ _
    · rfl
  · exact if_neg fun h => hid h.1

/-- A call that frees nothing leaves the heap and its blocks. -/
theorem free_of_refused (hid : heapId.toNat = id.val)
    (h : ¬ ((s.mem id).isValid = true ∧ ptr ≠ 0 ∧ size ≠ 0)) :
    (step id s (.free heapId ptr size)).mem id = s.mem id ∧
      (step id s (.free heapId ptr size)).returned = s.returned := by
  have hheap : heapId.toNat < heapMax := by
    rw [hid]
    exact id.isLt
  have hindex : (⟨heapId.toNat,hheap⟩ : Fin heapMax) = id := Fin.ext hid
  have hcall : (appMemFree heapId ptr size s.mem).1 = -1 ∧
      (appMemFree heapId ptr size s.mem).2 id = s.mem id := by
    unfold appMemFree
    split_ifs with hargs
    · have hvalid : ¬ (s.mem id).isValid = true := fun hv => h ⟨hv,hargs.2⟩
      dsimp only
      rw [hindex,update_self]
      unfold freeIn
      rw [if_neg hvalid]
      exact ⟨rfl,rfl⟩
    · exact ⟨rfl,rfl⟩
  refine ⟨hcall.2,if_neg fun hok => ?_⟩
  have hstatus := hok.2
  rw [hcall.1] at hstatus
  contradiction

/-- A call that frees in the heap puts the offset back. -/
theorem free_here (hid : heapId.toNat = id.val) (hvalid : (s.mem id).isValid = true)
    (hlinear : (s.mem id).heapPrm.linear) (hptr : ptr ≠ 0) (hsize : size ≠ 0) :
    (step id s (.free heapId ptr size)).mem id = { s.mem id with allocOffset := 0 } ∧
      (step id s (.free heapId ptr size)).returned =
        s.returned.filter fun r => r.block.addr ≠ ptr.toNat := by
  have hheap : heapId.toNat < heapMax := by
    rw [hid]
    exact id.isLt
  have hindex : (⟨heapId.toNat,hheap⟩ : Fin heapMax) = id := Fin.ext hid
  have hfree : freeIn (s.mem id) = (0,{ s.mem id with allocOffset := 0 }) := by
    unfold freeIn
    rw [if_pos hvalid,if_pos hlinear]
  have hcall : appMemFree heapId ptr size s.mem =
      (0,update s.mem id { s.mem id with allocOffset := 0 }) := by
    unfold appMemFree
    rw [dif_pos ⟨hheap,hptr,hsize⟩]
    dsimp only
    rw [hindex,hfree]
  unfold step
  dsimp only
  rw [hcall]
  dsimp only
  rw [update_self,if_pos ⟨hid,rfl⟩]
  exact ⟨rfl,rfl⟩

/-- A call that leaves the heap and its blocks keeps the invariant. -/
theorem InUse.of_same (h : InUse id prm s) {t : State k η} (hmem : t.mem id = s.mem id)
    (hreturned : t.returned = s.returned) : InUse id prm t := by
  constructor
  · constructor
    · rw [hmem]
      exact h.kept.valid
    · rw [hmem]
      exact h.kept.offset
    · rw [hreturned]
      exact h.kept.aligned
    · rw [hmem,hreturned]
      exact h.kept.packed
    · rw [hmem,hreturned]
      exact h.kept.first
  · rw [hreturned]
    exact h.sizes

/-- Without blocks in use the heap may start over. -/
theorem InUse.reset (h : InUse id prm s) {t : State k η}
    (hmem : t.mem id = { s.mem id with allocOffset := 0 }) (hreturned : t.returned = []) :
    InUse id prm t := by
  have hoffset : (t.mem id).allocOffset = 0 := by rw [hmem]
  constructor
  · constructor
    · rw [hmem]
      exact h.kept.valid
    · rw [hoffset]
      exact Nat.zero_le _
    · rw [hreturned]
      intro r hr
      contradiction
    · rw [hreturned]
      exact packed_nil
    · rw [hoffset]
      intro hpos
      exact absurd hpos (Nat.lt_irrefl 0)
  · rw [hreturned]
    intro r hr
    contradiction

/-- A block up to the end of one that is still in use. -/
def overlapping (id : Fin heapMax) (prm : HeapPrm k) (r : Returned) : Call k η where
  heapAlloc := fun _ _ => 0
  heapId := BitVec.ofNat 32 id.val
  size := BitVec.ofNat 32 (r.block.addr + r.block.size - prm.base.toNat)
  align := 1
  align_pos := noAlign_pos

/-- Once the heap starts over, a block that is still in use is overlapped by
the next one, if that is large enough. -/
theorem not_blocksSafe_of_reset (h : InUse id prm s) (hlinear : prm.linear)
    (hvalid : (s.mem id).isValid = true) {t : State k η}
    (hmem : t.mem id = { s.mem id with allocOffset := 0 }) {r : Returned} (hr : r ∈ s.returned)
    (hstays : r ∈ t.returned) : ¬ BlocksSafe id prm t := by
  obtain ⟨hprm,hbase⟩ := h.kept.valid hvalid
  obtain ⟨hstart,hend⟩ := h.kept.packed.within r.block (List.mem_map_of_mem hr)
  have hpos := h.sizes r hr
  have hoffset := h.kept.offset
  have hsize := prm.size.isLt
  have hone : (1 : U32).toNat = 1 := rfl
  have hzero : (t.mem id).allocOffset.toNat = 0 := by rw [hmem]; rfl
  have hid : (overlapping (η := η) id prm r).heapId.toNat = id.val := by
    have hlt : id.val < heapMax := id.isLt
    have hmax : heapMax = 3 := rfl
    exact Nat.mod_eq_of_lt (by omega)
  have hbytes : (overlapping (η := η) id prm r).size.toNat =
      r.block.addr + r.block.size - prm.base.toNat := Nat.mod_eq_of_lt (by omega)
  have haligned : alignUp (t.mem id).allocOffset.toNat
      (overlapping (η := η) id prm r).align.toNat = 0 := by
    rw [hzero]
    exact alignUp_zero noAlign_pos
  have hnowrap : ¬ 2 ^ 32 < (t.mem id).allocOffset.toNat +
      (overlapping (η := η) id prm r).align.toNat := by
    rw [hzero]
    change ¬ 2 ^ 32 < 0 + 1
    omega
  have hfits : Fits prm (t.mem id) (overlapping id prm r) := by
    unfold Fits
    rw [haligned,hbytes]
    omega
  have hsound : SoundCall id prm t (overlapping id prm r) := by
    intro _ _ _
    unfold Sound
    dsimp only
    rw [if_neg hnowrap,if_pos hfits,haligned]
    exact Or.inr ⟨prm.base.isLt,one_dvd _⟩
  have hreach : Reaches id t (overlapping id prm r) := by
    refine ⟨hid,?_,?_⟩
    · rw [hmem]
      exact hvalid
    · rw [hbytes]
      omega
  have hprm' : (t.mem id).heapPrm = prm := by
    rw [hmem]
    exact hprm
  have hnone : codeOffset (t.mem id).allocOffset.toNat
      (overlapping (η := η) id prm r).align.toNat = 0 := (if_neg hnowrap).trans haligned
  have hserved : Served id t (overlapping id prm r) := by
    rcases idle_or_served hreach (hprm'.symm ▸ hlinear) with ⟨hlt,-⟩ | ⟨-,hserved⟩
    · unfold codeEnd at hlt
      rw [hprm',hnone,hbytes,Nat.zero_add,Nat.mod_eq_of_lt (by omega)] at hlt
      omega
    · exact hserved
  have hptr := hserved.ptr_of_lt hnone (by rw [hprm']; exact prm.base.isLt)
  rw [hprm',Nat.add_zero] at hptr
  intro hsafe
  have happart := (hsafe.2 _ hsound).packed.apart
  rw [hserved.returned_of_pos (by omega),List.map_append] at happart
  have hpair := (List.pairwise_append.mp happart).2.2 r.block (List.mem_map_of_mem hstays) _
    (List.mem_singleton_self _)
  unfold Apart at hpair
  dsimp only at hpair
  rw [hptr,hbytes] at hpair
  omega

/-- From the invariant a call leaves the blocks safe exactly when it frees
no block beside others. -/
theorem step_exact (h : InUse id prm s) (hlinear : prm.linear) (a : MemCall k η)
    (hsound : SoundAlloc id prm s a) :
    (BlocksSafe id prm (step id s a) ↔ FreesLast id s a) ∧
      (FreesLast id s a → InUse id prm (step id s a)) := by
  cases a with
  | alloc c =>
    have hkept := h.alloc hlinear hsound
    exact ⟨iff_of_true (hkept.blocksSafe hlinear) trivial,fun _ => hkept⟩
  | free heapId ptr size =>
    by_cases hid : heapId.toNat = id.val
    swap
    · have hsame : (step id s (.free heapId ptr size)).mem id = s.mem id ∧
          (step id s (.free heapId ptr size)).returned = s.returned := free_of_ne hid
      have hkept := h.of_same hsame.1 hsame.2
      exact ⟨iff_of_true (hkept.blocksSafe hlinear) fun h => absurd h hid,fun _ => hkept⟩
    by_cases hfrees : (s.mem id).isValid = true ∧ ptr ≠ 0 ∧ size ≠ 0
    swap
    · obtain ⟨hmem,hreturned⟩ := free_of_refused (s := s) hid hfrees
      have hkept := h.of_same hmem hreturned
      refine ⟨iff_of_true (hkept.blocksSafe hlinear) ?_,fun _ => hkept⟩
      exact fun _ hvalid hptr hsize => absurd ⟨hvalid,hptr,hsize⟩ hfrees
    obtain ⟨hvalid,hptr,hsize⟩ := hfrees
    have hprm : (s.mem id).heapPrm = prm := (h.kept.valid hvalid).1
    obtain ⟨hmem,hreturned⟩ := free_here hid hvalid (hprm.symm ▸ hlinear) hptr hsize
    have hlast : FreesLast id s (.free heapId ptr size) ↔
        ∀ r ∈ s.returned, r.block.addr = ptr.toNat :=
      ⟨fun h => h hid hvalid hptr hsize,fun h _ _ _ _ => h⟩
    have hreset : (∀ r ∈ s.returned, r.block.addr = ptr.toNat) →
        InUse id prm (step id s (.free heapId ptr size)) := by
      intro hall
      refine h.reset hmem (hreturned.trans (List.filter_eq_nil_iff.mpr fun r hr => ?_))
      simpa using hall r hr
    rw [hlast]
    refine ⟨⟨fun hsafe r hr => ?_,fun hall => (hreset hall).blocksSafe hlinear⟩,hreset⟩
    by_contra hother
    refine not_blocksSafe_of_reset h hlinear hvalid hmem hr ?_ hsafe
    rw [hreturned,List.mem_filter]
    exact ⟨hr,decide_eq_true hother⟩

/-- Over every run of sound calls for blocks and of calls that free, the
blocks in use of a linear heap are in every state as asked for, and stay so
whatever sound call comes next, exactly when a block is freed only while no
other is in use. -/
theorem blocks_safe_iff (create : Ptr k → U32 → Option η) (prm : Fin heapMax → HeapPrm k)
    (g : Mem k η) (id : Fin heapMax) (hlinear : (prm id).linear) (calls : List (MemCall k η))
    (hsound : Guarded (step id) (SoundAlloc id (prm id)) (start create prm g) calls) :
    Along (step id) (BlocksSafe id (prm id)) (start create prm g) calls ↔
      Guarded (step id) (FreesLast id) (start create prm g) calls := by
  have hstart : InUse id (prm id) (start create prm g) :=
    ⟨kept_start create g hlinear,fun r hr => by cases hr⟩
  have hexact : ∀ (s : State k η) (a : MemCall k η), InUse id (prm id) s →
      SoundAlloc id (prm id) s a →
      (BlocksSafe id (prm id) (step id s a) ∧ True ↔ FreesLast id s a) := by
    intro s a hs hA
    rw [and_true]
    exact (step_exact hs hlinear a hA).1
  have hiff := along_and_guarded_iff_of_allowed (fun s hs => hs.blocksSafe hlinear)
    (fun s a hs hA => (step_exact hs hlinear a hA).2) hexact hstart hsound
  rwa [and_iff_left (guarded_true _ _)] at hiff

/-- The first heap. -/
def firstHeap : Fin heapMax := ⟨0,heapMax_pos⟩

/-- A block of a page is taken, freed and taken again. -/
theorem blocks_safe_page :
    Along (step firstHeap) (BlocksSafe firstHeap (pageHeaps firstHeap))
      (start noHeap pageHeaps noMem)
      [.alloc (bytesCall 64),.free 0 0x70000000 64,.alloc (bytesCall 4096)] := by
  have hlinear : (pageHeaps firstHeap).linear := by decide
  refine (blocks_safe_iff noHeap pageHeaps noMem firstHeap hlinear _ ?_).mpr ?_
  · refine ⟨fun _ _ _ => ?_,trivial,fun _ _ _ => ?_,trivial⟩
    · unfold Sound
      decide
    · unfold Sound
      decide
  · refine ⟨trivial,fun _ _ _ _ => ?_,trivial,trivial⟩
    decide

end EthernetFirmware.LinearHeapFree
