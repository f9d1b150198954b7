import EthernetFirmware.GuardedRuns
import EthernetFirmware.ShmCirbuf

/-!
# The shared-memory buffer as a queue

Beside the buffer the state records the bytes that writes accepted and the
bytes that reads delivered. The buffer is a queue when the delivered bytes
are a prefix of the accepted ones, readers compute the number of bytes in
between, the addresses stay in the data area, and no write goes ahead over
bytes that are not delivered. Nothing in a write looks at the read address,
and a reader's count is wrong once the write address has wrapped around, so
the exact condition is on the writes: each leaves the buffer short of full
and finds and leaves the write address at or above the read address.
-/

namespace EthernetFirmware.ShmFifo

open RingBuffers GuardedRuns RemoteConfig ShmCirbuf

/-- What the creator of a buffer is given: memory for the object and blocks
of a size that fits the length of a read, inside the address space. -/
structure Region where
  /-- Start of the memory. -/
  address : U32
  /-- Size of a block. -/
  blockSize : U16
  /-- Size of the memory. -/
  totalSize : U32
  /-- A block is not empty. -/
  blockPos : 0 < blockSize.toNat
  /-- There is memory for the object. -/
  overhead : 128 ≤ totalSize.toNat
  /-- The memory ends inside the address space. -/
  inside : address.toNat + totalSize.toNat < 2 ^ 32

/-- Size of a block as a number. -/
abbrev Region.block (m : Region) : ℕ := m.blockSize.toNat

/-- Size of a block as the writers pass it. -/
def Region.dataLen (m : Region) : U32 := m.blockSize.setWidth 32

/-- Size of the data area. -/
def Region.size (m : Region) : ℕ := (m.totalSize.toNat - 128) / m.block * m.block

/-- First address of the data area. -/
def Region.base (m : Region) : ℕ := m.address.toNat + 128

/-- A block of bytes. -/
abbrev Block (m : Region) := {data : List U8 // data.length = m.block}

/-- Operations on the buffer, each with a block's length. -/
inductive Op (m : Region) where
  /-- `shm_write`. -/
  | write (data : Block m)
  /-- `shm_writeBufPtr`, and a block stored at the address. -/
  | writeBufPtr (data : Block m)
  /-- `shm_read`. -/
  | read
  /-- `shm_readBufPtr`, and the block found at the address. -/
  | readBufPtr

/-- The operation writes. -/
def Op.isWrite {m : Region} : Op m → Bool
  | .write _ => true
  | .writeBufPtr _ => true
  | .read => false
  | .readBufPtr => false

/-- The buffer with its history. -/
structure Fifo where
  /-- Buffer. -/
  shm : Shm
  /-- Bytes of the blocks that writes accepted. -/
  accepted : List U8
  /-- Bytes of the blocks that reads delivered. -/
  delivered : List U8

/-- State after a write that leaves the buffer `shm`. -/
def afterWrite (m : Region) (s : Fifo) (data : List U8) (shm : Shm) : Fifo where
  shm := shm
  accepted := if Accepts s.shm.obj m.dataLen then s.accepted ++ data else s.accepted
  delivered := s.delivered

/-- State after a read: it delivers when it leaves a length. -/
def afterRead (s : Fifo) (r : ReadResult (List U8)) : Fifo where
  shm := r.shm
  accepted := s.accepted
  delivered := s.delivered ++ if r.dataLen = 0#16 then [] else r.pData.getD []

/-- State after an operation. -/
def step (m : Region) (s : Fifo) : Op m → Fifo
  | .write data => afterWrite m s data (shmWrite s.shm data m.dataLen)
  | .writeBufPtr data => afterWrite m s data (writeThrough s.shm data m.dataLen)
  | .read => afterRead s (shmRead s.shm m.blockSize)
  | .readBufPtr => afterRead s (readThrough s.shm m.blockSize)

/-- A buffer as its creator leaves it. -/
def start (m : Region) (mem : Mem) : Fifo :=
  ⟨aafInitShm mem m.address m.dataLen m.totalSize,[],[]⟩

/-- The address is in the data area; an empty area has its start only. -/
def Inside (m : Region) (addr : U32) : Prop :=
  m.base ≤ addr.toNat ∧ (addr.toNat < m.base + m.size ∨ addr.toNat = m.base)

/-- The buffer is a queue. -/
structure FifoOk (m : Region) (s : Fifo) : Prop where
  /-- Bytes are delivered as they were accepted. -/
  inOrder : s.delivered <+: s.accepted
  /-- Readers compute the bytes not delivered yet. -/
  avail : (dataAvail s.shm.obj).toNat = s.accepted.length - s.delivered.length
  /-- The read address is in the data area. -/
  readInside : Inside m s.shm.obj.readAddr
  /-- So is the write address. -/
  writeInside : Inside m s.shm.obj.writeAddr

/-- A write over bytes that are not delivered does not go ahead. -/
def RefusesOverwrite (m : Region) (s : Fifo) (op : Op m) : Prop :=
  op.isWrite = true → m.size < s.accepted.length - s.delivered.length + m.block →
    ¬ Accepts s.shm.obj m.dataLen

/-- A write keeps the queue. Into an empty area it must not pass the end of
the address space. Into any other, it finds the write address at or above
the read address, leaves the buffer short of full, and reaches the end of
the area only when the area starts in the middle of the address space. -/
structure WriteKeeps (m : Region) (s : Fifo) : Prop where
  /-- The end of a block at an empty area has an address. -/
  empty : m.size = 0 → m.base + m.block < 2 ^ 32
  /-- The write address is not below the read address. -/
  above : m.size ≠ 0 → s.shm.obj.readAddr.toNat ≤ s.shm.obj.writeAddr.toNat
  /-- The buffer stays short of full. -/
  room : m.size ≠ 0 →
    s.shm.obj.writeAddr.toNat - s.shm.obj.readAddr.toNat + m.block < m.size
  /-- The write address starts anew in the middle of the address space only. -/
  anew : m.size ≠ 0 → s.shm.obj.writeAddr.toNat + m.block = m.base + m.size → m.base = 2 ^ 31

/-- The operation is a read, or a write that keeps the queue. -/
def KeepsFifo (m : Region) (s : Fifo) (op : Op m) : Prop := op.isWrite = true → WriteKeeps m s

/-- Cells of the data area. -/
def cells (m : Region) (mem : Mem) (k : ℕ) : U8 := mem (BitVec.ofNat 32 (m.base + k))

/-- What operations that keep the queue keep. -/
structure FifoInv (m : Region) (s : Fifo) : Prop where
  /-- The object is initialised. -/
  header : s.shm.obj.header = shdmemMagic
  /-- Start of the data area. -/
  startAt : s.shm.obj.startAddr.toNat = m.base
  /-- End of the data area. -/
  endAt : s.shm.obj.endAddr.toNat = m.base + m.size
  /-- Size of the data area. -/
  total : s.shm.obj.totalBufSize.toNat = m.size
  /-- The read address follows the delivered bytes. -/
  readAt : s.shm.obj.readAddr.toNat = m.base + s.delivered.length % m.size
  /-- The write address follows the accepted bytes. -/
  writeAt : s.shm.obj.writeAddr.toNat = m.base + s.accepted.length % m.size
  /-- Whole blocks are accepted. -/
  acceptedBlocks : m.block ∣ s.accepted.length
  /-- Whole blocks are delivered. -/
  deliveredBlocks : m.block ∣ s.delivered.length
  /-- Bytes are delivered as they were accepted. -/
  inOrder : s.delivered <+: s.accepted
  /-- The buffer is short of full. -/
  room : s.accepted = [] ∨ s.accepted.length < s.delivered.length + m.size
  /-- Below the read address, the write address is in the middle of the
  address space. -/
  wrapped : s.shm.obj.writeAddr.toNat < s.shm.obj.readAddr.toNat →
    s.shm.obj.writeAddr.toNat = 2 ^ 31
  /-- Bytes not delivered yet are in their cells. -/
  stored : Holds m.size (cells m s.shm.mem) s.accepted s.delivered.length

section Region

variable (m : Region)

theorem Region.block_lt : m.block < 2 ^ 16 := m.blockSize.isLt

theorem Region.block_dvd : m.block ∣ m.size := Dvd.intro_left _ rfl

theorem Region.size_le : m.size ≤ m.totalSize.toNat - 128 := Nat.div_mul_le_self ..

/-- The data area is inside the address space. -/
theorem Region.area : 128 ≤ m.base ∧ m.base + m.size < 2 ^ 32 := by
  have hsize := m.size_le
  have hin := m.inside
  have hover := m.overhead
  unfold Region.base
  omega

theorem Region.toNat_dataLen : m.dataLen.toNat = m.block := by
  unfold Region.dataLen
  rw [BitVec.toNat_setWidth]
  exact Nat.mod_eq_of_lt (Nat.lt_trans m.block_lt (by omega))

/-- The buffer's size is that of the data area and the object. -/
theorem toNat_rxShmBufSize :
    (rxShmBufSize m.dataLen m.totalSize).toNat = m.size + 128 := by
  have hsize := m.size_le
  have hover := m.overhead
  have hlt := m.totalSize.isLt
  have hsub : (m.totalSize - cacheLineSize).toNat = m.totalSize.toNat - 128 := by
    unfold cacheLineSize
    rw [BitVec.toNat_sub]
    simp only [BitVec.toNat_ofNat]
    omega
  have hmul : ((m.totalSize - cacheLineSize) / m.dataLen * m.dataLen).toNat = m.size := by
    rw [BitVec.toNat_mul,BitVec.toNat_udiv,hsub,m.toNat_dataLen]
    exact Nat.mod_eq_of_lt (by unfold Region.size at hsize; omega)
  unfold rxShmBufSize
  rw [BitVec.toNat_add,hmul]
  change (m.size + 128) % 2 ^ 32 = m.size + 128
  omega

/-- A buffer starts as an empty queue. -/
theorem fifoInv_start (mem : Mem) : FifoInv m (start m mem) := by
  have harea := m.area
  have hbuf := toNat_rxShmBufSize m
  have hstart : (m.address + cacheLineSize).toNat = m.base := by
    unfold cacheLineSize
    rw [BitVec.toNat_add]
    change (m.address.toNat + 128) % 2 ^ 32 = m.address.toNat + 128
    unfold Region.base at harea
    omega
  have hsize : (rxShmBufSize m.dataLen m.totalSize - cacheLineSize).toNat = m.size := by
    rw [BitVec.toNat_sub,hbuf]
    change (2 ^ 32 - 128 + (m.size + 128)) % 2 ^ 32 = m.size
    omega
  have hnew : (zeroObj.header = shdmemMagic) = False := by
    simp [zeroObj,shdmemMagic]
  have hobj : (start m mem).shm.obj =
      { header := shdmemMagic
        readAddr := m.address + cacheLineSize
        writeAddr := m.address + cacheLineSize
        startAddr := m.address + cacheLineSize
        endAddr := m.address + cacheLineSize +
          (rxShmBufSize m.dataLen m.totalSize - cacheLineSize)
        dataAvail := 0#32, readErrCnt := 0#32, writeErrCnt := 0#32, readErrorEmpty := 0#32
        writeErrorFull := 0#32
        totalBufSize := rxShmBufSize m.dataLen m.totalSize - cacheLineSize
        tail := shdmemMagic } := by
    unfold start aafInitShm shmCreate
    simp only [hnew,if_false]
  refine ⟨?_,?_,?_,?_,?_,?_,Nat.dvd_zero _,Nat.dvd_zero _,List.nil_prefix,Or.inl rfl,?_,?_⟩
  · rw [hobj]
  · rw [hobj]
    exact hstart
  · rw [hobj]
    dsimp only
    rw [BitVec.toNat_add,hstart,hsize]
    omega
  · rw [hobj]
    exact hsize
  · rw [hobj]
    exact hstart
  · rw [hobj]
    exact hstart
  · rw [hobj]
    exact fun h => absurd h (Nat.lt_irrefl _)
  · intro i x _ hx
    simp [start] at hx

end Region

variable {m : Region} {s : Fifo} {data : Block m}

/-- What readers compute when the write address is not below the read
address. -/
theorem dataAvail_of_le {obj : ShdMemObj} (h : obj.readAddr.toNat ≤ obj.writeAddr.toNat) :
    (dataAvail obj).toNat = obj.writeAddr.toNat - obj.readAddr.toNat := by
  have hw := obj.writeAddr.isLt
  unfold dataAvail
  rw [if_pos (BitVec.le_def.mpr h),BitVec.toNat_sub]
  omega

/-- What readers compute when it is below. -/
theorem dataAvail_of_lt {obj : ShdMemObj} (h : obj.writeAddr.toNat < obj.readAddr.toNat) :
    (dataAvail obj).toNat = (obj.totalBufSize.toNat + 2 * 2 ^ 32 - obj.readAddr.toNat -
      obj.writeAddr.toNat) % 2 ^ 32 := by
  have hw := obj.writeAddr.isLt
  have hr := obj.readAddr.isLt
  have hn := obj.totalBufSize.isLt
  unfold dataAvail
  rw [if_neg (fun hle => by have := BitVec.le_def.mp hle; omega),BitVec.toNat_sub,BitVec.toNat_sub]
  omega

theorem FifoInv.length_le (h : FifoInv m s) : s.delivered.length ≤ s.accepted.length :=
  h.inOrder.length_le

/-- Positions of the data area's addresses, and the distance between them. -/
theorem FifoInv.distance (h : FifoInv m s) :
    (s.shm.obj.readAddr.toNat ≤ s.shm.obj.writeAddr.toNat →
      s.shm.obj.writeAddr.toNat - s.shm.obj.readAddr.toNat =
        s.accepted.length - s.delivered.length) ∧
    (s.shm.obj.writeAddr.toNat < s.shm.obj.readAddr.toNat →
      s.shm.obj.writeAddr.toNat + m.size - s.shm.obj.readAddr.toNat =
        s.accepted.length - s.delivered.length) := by
  have hlen := h.length_le
  have hr := h.readAt
  have hw := h.writeAt
  rcases h.room with hnil | hroom
  · rw [hnil] at hlen hw ⊢
    have hzero : s.delivered.length = 0 := by simpa using hlen
    rw [hzero] at hr ⊢
    simp only [List.length_nil,Nat.zero_mod] at hr hw ⊢
    omega
  · constructor
    · intro hle
      have := unread_of_le (n := m.size) hlen hroom (by omega)
      omega
    · intro hlt
      have := unread_of_lt (n := m.size) hlen hroom (by omega)
      omega

/-- What is kept makes the buffer a queue. -/
theorem FifoInv.ok (h : FifoInv m s) : FifoOk m s := by
  have harea := m.area
  have hdist := h.distance
  have hinside : ∀ {addr : U32} {k : ℕ}, k ≤ s.accepted.length →
      addr.toNat = m.base + k % m.size → Inside m addr := by
    intro addr k hk haddr
    refine ⟨by omega,?_⟩
    rcases Nat.eq_zero_or_pos m.size with hz | hpos
    · rcases h.room with hnil | hroom
      · rw [hnil] at hk
        have hzero : k = 0 := by simpa using hk
        rw [hzero,Nat.zero_mod] at haddr
        exact Or.inr haddr
      · have := h.length_le
        omega
    · have := Nat.mod_lt k hpos
      exact Or.inl (by omega)
  refine ⟨h.inOrder,?_,hinside h.length_le h.readAt,hinside (Nat.le_refl _) h.writeAt⟩
  by_cases hle : s.shm.obj.readAddr.toNat ≤ s.shm.obj.writeAddr.toNat
  · rw [dataAvail_of_le hle]
    exact hdist.1 hle
  · have hlt := Nat.not_le.mp hle
    have hmid := h.wrapped hlt
    have hwrap := hdist.2 hlt
    have hr := s.shm.obj.readAddr.isLt
    have hreadAt := h.readAt
    have hwriteAt := h.writeAt
    have hmod : s.delivered.length % m.size ≤ m.size := by
      rcases Nat.eq_zero_or_pos m.size with hz | hpos
      · have := h.length_le
        rcases h.room with hnil | hroom
        · rw [hnil] at this
          have hzero : s.delivered.length = 0 := by simpa using this
          rw [hzero,Nat.zero_mod]
          omega
        · omega
      · exact Nat.le_of_lt (Nat.mod_lt _ hpos)
    rw [dataAvail_of_lt hlt,h.total]
    omega

/-- A block's end, for an address at a count of whole blocks. -/
theorem toNat_blockEnd {addr : U32} {k : ℕ} (hpos : m.size ≠ 0) (hk : m.block ∣ k)
    (haddr : addr.toNat = m.base + k % m.size) :
    (addr + m.dataLen).toNat = m.base + (k % m.size + m.block) ∧
      k % m.size + m.block ≤ m.size := by
  have harea := m.area
  have hfit := block_fits m.block_dvd hk (Nat.pos_of_ne_zero hpos)
  refine ⟨?_,hfit⟩
  rw [BitVec.toNat_add,haddr,m.toNat_dataLen]
  omega

/-- Moving an address over a block moves its count. -/
theorem FifoInv.toNat_advance (h : FifoInv m s) {addr : U32} {k : ℕ} (hpos : m.size ≠ 0)
    (hk : m.block ∣ k) (haddr : addr.toNat = m.base + k % m.size) :
    (advance s.shm.obj addr m.dataLen).toNat = m.base + (k + m.block) % m.size := by
  obtain ⟨hend,hfit⟩ := toNat_blockEnd hpos hk haddr
  rw [mod_add_block hfit]
  unfold advance
  by_cases hlast : k % m.size + m.block = m.size
  · have heq : addr + m.dataLen = s.shm.obj.endAddr :=
      BitVec.eq_of_toNat_eq (by rw [hend,h.endAt,hlast])
    rw [if_pos heq,if_pos hlast,h.startAt,Nat.add_zero]
  · have hne : addr + m.dataLen ≠ s.shm.obj.endAddr := by
      intro heq
      have := congrArg BitVec.toNat heq
      rw [hend,h.endAt] at this
      omega
    rw [if_neg hne,if_neg hlast,hend]

/-- Writes into a data area of any size go ahead, full or not. -/
theorem FifoInv.accepts (h : FifoInv m s) (hpos : m.size ≠ 0) :
    Accepts s.shm.obj m.dataLen := by
  obtain ⟨hend,hfit⟩ := toNat_blockEnd hpos h.acceptedBlocks h.writeAt
  refine ⟨h.header,BitVec.le_def.mpr ?_⟩
  rw [hend,h.endAt]
  omega

/-- The cells after a block was written at the write address. -/
theorem cells_writeBytes {mem : Mem} {addr : U32} {c k : ℕ} (haddr : addr.toNat = m.base + c)
    (hc : c + m.block ≤ m.size) (hk : k < m.size) :
    cells m (writeBytes mem addr data.val) k = put (cells m mem) c data.val k := by
  have harea := m.area
  have hlt := addr.isLt
  have hsub : (BitVec.ofNat 32 (m.base + k) - addr).toNat =
      if c ≤ k then k - c else 2 ^ 32 - (c - k) := by
    rw [BitVec.toNat_sub,BitVec.toNat_ofNat,haddr]
    split
    · omega
    · omega
  unfold cells writeBytes put
  rw [hsub]
  by_cases hle : c ≤ k
  · rw [if_pos hle,if_pos hle]
  · rw [if_neg hle,if_neg hle,List.getElem?_eq_none (by rw [data.property]; omega),
      Option.getD_none]

/-- The state after a write that goes ahead. -/
def written (m : Region) (s : Fifo) (data : Block m) : Fifo where
  shm :=
    { obj := { s.shm.obj with writeAddr := advance s.shm.obj s.shm.obj.writeAddr m.dataLen }
      mem := writeBytes s.shm.mem s.shm.obj.writeAddr data.val }
  accepted := s.accepted ++ data.val
  delivered := s.delivered

theorem FifoInv.step_write (h : FifoInv m s) (hpos : m.size ≠ 0) :
    afterWrite m s data.val (shmWrite s.shm data.val m.dataLen) = written m s data := by
  have ha := h.accepts hpos
  unfold afterWrite written
  rw [shmWrite_accepted ha,if_pos ha]

theorem length_written (m : Region) (s : Fifo) (data : Block m) :
    (written m s data).accepted.length = s.accepted.length + m.block := by
  unfold written
  rw [List.length_append,data.property]

/-- A guarded write keeps the queue. -/
theorem FifoInv.keeps_written (h : FifoInv m s) (hpos : m.size ≠ 0) (hG : WriteKeeps m s) :
    FifoInv m (written m s data) := by
  have hle := hG.above hpos
  have hroom := hG.room hpos
  have hdist := h.distance.1 hle
  have hlen := h.length_le
  have hnew := length_written m s data
  have hfit := (toNat_blockEnd hpos h.acceptedBlocks h.writeAt).2
  have hadv := h.toNat_advance hpos h.acceptedBlocks h.writeAt
  have hwriteAt := h.writeAt
  refine ⟨h.header,h.startAt,h.endAt,h.total,h.readAt,?_,?_,h.deliveredBlocks,
    h.inOrder.trans (List.prefix_append ..),Or.inr ?_,?_,?_⟩
  · rw [hnew]
    exact hadv
  · rw [hnew]
    exact Nat.dvd_add h.acceptedBlocks (Nat.dvd_refl _)
  · rw [hnew]
    change _ < s.delivered.length + m.size
    omega
  · change (advance _ _ _).toNat < s.shm.obj.readAddr.toNat → (advance _ _ _).toNat = 2 ^ 31
    rw [hadv,mod_add_block hfit]
    intro hlt
    split at hlt
    · next hend =>
      rw [if_pos hend,Nat.add_zero]
      exact hG.anew hpos (by omega)
    · omega
  · have hput : Holds m.size (put (cells m s.shm.mem) (s.accepted.length % m.size) data.val)
        (s.accepted ++ data.val) s.delivered.length :=
      h.stored.put (by rw [data.property]; exact hfit) (by rw [data.property]; omega)
    exact hput.congr (Nat.pos_of_ne_zero hpos) fun k hk => cells_writeBytes hwriteAt hfit hk

/-- Bytes counted off instead of on give a wrong count. -/
theorem mod_sub_ne_add {k b : ℕ} (hpos : 0 < b) (hb : b < 2 ^ 16) (hk : k + b < 2 ^ 32) :
    (k + 2 ^ 32 - b) % 2 ^ 32 ≠ k + b := by
  omega

/-- A write keeps the queue and overwrites nothing only under the guard. -/
theorem guard_of_written (h : FifoInv m s) (hpos : m.size ≠ 0) (hok : FifoOk m (written m s data))
    (hover : ¬ m.size < s.accepted.length - s.delivered.length + m.block) : WriteKeeps m s := by
  have harea := m.area
  have hblock : 0 < m.block := m.blockPos
  have hblock' := m.block_lt
  have hlen := h.length_le
  have hreadAt := h.readAt
  have hwriteAt := h.writeAt
  have hfit := (toNat_blockEnd hpos h.acceptedBlocks h.writeAt).2
  have hmod := Nat.mod_lt s.delivered.length (Nat.pos_of_ne_zero hpos)
  have hadv := h.toNat_advance hpos h.acceptedBlocks h.writeAt
  rw [mod_add_block hfit] at hadv
  have havail := hok.avail
  rw [length_written] at havail
  change _ = s.accepted.length + m.block - s.delivered.length at havail
  have hread : (written m s data).shm.obj.readAddr = s.shm.obj.readAddr := rfl
  have hwrite : (written m s data).shm.obj.writeAddr.toNat =
      m.base + if s.accepted.length % m.size + m.block = m.size then 0
        else s.accepted.length % m.size + m.block := hadv
  have htotal : (written m s data).shm.obj.totalBufSize.toNat = m.size := h.total
  have hcount : ∀ n : ℕ, (dataAvail (written m s data).shm.obj).toNat = n →
      n = s.accepted.length + m.block - s.delivered.length := fun n hn => hn.symm.trans havail
  by_cases hle : s.shm.obj.readAddr.toNat ≤ s.shm.obj.writeAddr.toNat
  · have hdist := h.distance.1 hle
    by_cases hend : s.accepted.length % m.size + m.block = m.size
    · rw [if_pos hend] at hwrite
      by_cases hfull : s.delivered.length % m.size = 0
      · have := hcount _ (dataAvail_of_le (by rw [hread,hwrite]; omega))
        rw [hread,hwrite] at this
        omega
      · have := hcount _ (dataAvail_of_lt (by rw [hread,hwrite]; omega))
        rw [hread,hwrite,htotal] at this
        exact ⟨fun hz => absurd hz hpos,fun _ => hle,fun _ => by omega,fun _ _ => by omega⟩
    · exact ⟨fun hz => absurd hz hpos,fun _ => hle,fun _ => by omega,fun _ hlast => by omega⟩
  · have hdist := h.distance.2 (Nat.not_le.mp hle)
    have hmid := h.wrapped (Nat.not_le.mp hle)
    rw [if_neg (by omega)] at hwrite
    by_cases hfull : s.accepted.length % m.size + m.block = s.delivered.length % m.size
    · have := hcount _ (dataAvail_of_le (by rw [hread,hwrite]; omega))
      rw [hread,hwrite] at this
      omega
    · have hwrong := hcount _ (dataAvail_of_lt (by rw [hread,hwrite]; omega))
      rw [hread,hwrite,htotal] at hwrong
      -- A block more in the area is a block less in the reader's count.
      have hless : m.size + 2 * 2 ^ 32 - s.shm.obj.readAddr.toNat -
          (m.base + (s.accepted.length % m.size + m.block)) =
          s.accepted.length - s.delivered.length + 2 ^ 32 - m.block := by omega
      have hmore : s.accepted.length + m.block - s.delivered.length =
          s.accepted.length - s.delivered.length + m.block := by omega
      rw [hless,hmore] at hwrong
      exact absurd hwrong (mod_sub_ne_add hblock hblock' (by omega))

/-- An empty area has accepted nothing. -/
theorem FifoInv.accepted_nil (h : FifoInv m s) (hz : m.size = 0) : s.accepted = [] := by
  rcases h.room with hnil | hroom
  · exact hnil
  · have := h.length_le
    omega

/-- A write that does not go ahead changes nothing of the queue. -/
theorem FifoInv.refused (h : FifoInv m s) (hno : ¬ Accepts s.shm.obj m.dataLen) :
    FifoInv m (afterWrite m s data.val (shmWrite s.shm data.val m.dataLen)) := by
  obtain ⟨hmem,c,hobj⟩ := shmWrite_refused data.val hno
  have hstate : afterWrite m s data.val (shmWrite s.shm data.val m.dataLen) =
      ⟨⟨{ s.shm.obj with writeErrorFull := c },s.shm.mem⟩,s.accepted,s.delivered⟩ := by
    unfold afterWrite
    rw [if_neg hno,← hobj,← hmem]
  rw [hstate]
  exact ⟨h.header,h.startAt,h.endAt,h.total,h.readAt,h.writeAt,h.acceptedBlocks,
    h.deliveredBlocks,h.inOrder,h.room,h.wrapped,h.stored⟩

/-- A write into an empty area goes ahead when a block passes the end of
the address space. -/
theorem FifoInv.accepts_empty_iff (h : FifoInv m s) (hz : m.size = 0) :
    Accepts s.shm.obj m.dataLen ↔ 2 ^ 32 ≤ m.base + m.block := by
  have harea := m.area
  have hblock : 0 < m.block := m.blockPos
  have hblock' := m.block_lt
  have hwrite := h.writeAt
  rw [h.accepted_nil hz,List.length_nil,Nat.zero_mod] at hwrite
  unfold Accepts
  rw [and_iff_right h.header,BitVec.le_def,BitVec.toNat_add,hwrite,m.toNat_dataLen,h.endAt]
  omega

/-- After such a write the write address is below the area. -/
theorem FifoInv.not_ok_of_empty (h : FifoInv m s) (hz : m.size = 0)
    (ha : Accepts s.shm.obj m.dataLen) : ¬ FifoOk m (written m s data) := by
  intro hok
  have harea := m.area
  have hblock' := m.block_lt
  have hover := (h.accepts_empty_iff hz).mp ha
  have hwrite := h.writeAt
  rw [h.accepted_nil hz,List.length_nil,Nat.zero_mod] at hwrite
  have hend : (s.shm.obj.writeAddr + m.dataLen).toNat = m.base + m.block - 2 ^ 32 := by
    rw [BitVec.toNat_add,hwrite,m.toNat_dataLen]
    omega
  have hne : s.shm.obj.writeAddr + m.dataLen ≠ s.shm.obj.endAddr := by
    intro heq
    have := congrArg BitVec.toNat heq
    rw [hend,h.endAt] at this
    omega
  have hinside : m.base ≤ (advance s.shm.obj s.shm.obj.writeAddr m.dataLen).toNat :=
    hok.writeInside.1
  unfold advance at hinside
  rw [if_neg hne,hend] at hinside
  omega

/-- A guarded write leaves what is kept. -/
theorem FifoInv.keeps_write (h : FifoInv m s) (hG : WriteKeeps m s) :
    FifoInv m (afterWrite m s data.val (shmWrite s.shm data.val m.dataLen)) := by
  by_cases hz : m.size = 0
  · apply h.refused
    rw [h.accepts_empty_iff hz]
    have := hG.empty hz
    omega
  · rw [h.step_write hz]
    exact h.keeps_written hz hG

/-- A write is right exactly under its guard. -/
theorem write_exact (h : FifoInv m s) :
    FifoOk m (afterWrite m s data.val (shmWrite s.shm data.val m.dataLen)) ∧
      (m.size < s.accepted.length - s.delivered.length + m.block →
        ¬ Accepts s.shm.obj m.dataLen) ↔ WriteKeeps m s := by
  constructor
  · rintro ⟨hok,hrefuse⟩
    by_cases hz : m.size = 0
    · refine ⟨fun _ => ?_,fun hne => absurd hz hne,fun hne => absurd hz hne,
        fun hne => absurd hz hne⟩
      by_contra hover
      have ha := (h.accepts_empty_iff hz).mpr (Nat.not_lt.mp hover)
      have hstate : afterWrite m s data.val (shmWrite s.shm data.val m.dataLen) =
          written m s data := by
        unfold afterWrite written
        rw [shmWrite_accepted ha,if_pos ha]
      rw [hstate] at hok
      exact h.not_ok_of_empty hz ha hok
    · rw [h.step_write hz] at hok
      exact guard_of_written h hz hok fun hover => hrefuse hover (h.accepts hz)
  · intro hG
    refine ⟨(h.keeps_write hG).ok,fun hover ha => ?_⟩
    by_cases hz : m.size = 0
    · have := (h.accepts_empty_iff hz).mp ha
      have := hG.empty hz
      omega
    · have hdist := h.distance.1 (hG.above hz)
      have := hG.room hz
      omega

/-- Bytes read in the data area are those of its cells. -/
theorem readBytes_eq {mem : Mem} {addr : U32} {k len : ℕ} (haddr : addr.toNat = m.base + k) :
    readBytes mem addr len = items (cells m mem) k len := by
  unfold readBytes items cells
  refine congrArg List.ofFn (funext fun i => congrArg mem (BitVec.eq_of_toNat_eq ?_))
  rw [BitVec.toNat_add,BitVec.toNat_ofNat,BitVec.toNat_ofNat,haddr]
  omega

/-- A read of a block that lies in the data area takes it. -/
theorem afterRead_block (h : FifoInv m s)
    (hd : (m.blockSize.setWidth 32 : U32) ≤ dataAvail s.shm.obj)
    (hinArea : s.shm.obj.readAddr + m.blockSize.setWidth 32 ≤ s.shm.obj.endAddr) :
    afterRead s (shmRead s.shm m.blockSize) =
      ⟨⟨{ s.shm.obj with readAddr := advance s.shm.obj s.shm.obj.readAddr m.dataLen },
        s.shm.mem⟩,s.accepted,
        s.delivered ++ readBytes s.shm.mem s.shm.obj.readAddr m.block⟩ := by
  have hne : m.blockSize ≠ 0#16 := by
    intro hz
    have hblock : 0 < m.block := m.blockPos
    rw [Region.block,hz] at hblock
    simp at hblock
  unfold afterRead
  rw [shmRead_block h.header hd hinArea]
  simp only [if_neg hne,Option.getD_some]
  rfl

/-- A read that finds a block gives the next one. -/
theorem FifoInv.read_block (h : FifoInv m s)
    (hd : (m.blockSize.setWidth 32 : U32) ≤ dataAvail s.shm.obj) :
    FifoInv m (afterRead s (shmRead s.shm m.blockSize)) := by
  have hblock : 0 < m.block := m.blockPos
  have hlen : (m.blockSize.setWidth 32 : U32).toNat = m.block := m.toNat_dataLen
  have hunread := BitVec.le_def.mp hd
  rw [hlen,h.ok.avail] at hunread
  have hpos : m.size ≠ 0 := by
    intro hz
    rw [h.accepted_nil hz,List.length_nil] at hunread
    omega
  obtain ⟨hend,hfit⟩ := toNat_blockEnd hpos h.deliveredBlocks h.readAt
  have hadv := h.toNat_advance hpos h.deliveredBlocks h.readAt
  have hinArea : s.shm.obj.readAddr + m.blockSize.setWidth 32 ≤ s.shm.obj.endAddr := by
    refine BitVec.le_def.mpr ?_
    rw [h.endAt]
    exact hend.trans_le (by omega)
  have hbytes : readBytes s.shm.mem s.shm.obj.readAddr m.block =
      (s.accepted.drop s.delivered.length).take m.block :=
    (readBytes_eq h.readAt).trans (h.stored.items hfit (by omega))
  have hnew : (s.delivered ++ readBytes s.shm.mem s.shm.obj.readAddr m.block).length =
      s.delivered.length + m.block := by
    rw [List.length_append,readBytes,List.length_ofFn]
  rw [afterRead_block h hd hinArea]
  refine ⟨h.header,h.startAt,h.endAt,h.total,?_,h.writeAt,h.acceptedBlocks,?_,
    prefix_append h.inOrder hbytes,?_,?_,?_⟩
  · rw [hnew]
    exact hadv
  · rw [hnew]
    exact Nat.dvd_add h.deliveredBlocks (Nat.dvd_refl _)
  · refine h.room.imp_right fun hroom => ?_
    change s.accepted.length < _ + m.size
    rw [hnew]
    omega
  · change s.shm.obj.writeAddr.toNat < (advance _ _ _).toNat →
      s.shm.obj.writeAddr.toNat = 2 ^ 31
    rw [hadv,mod_add_block hfit]
    intro hlt
    have hreadAt := h.readAt
    have hwriteAt := h.writeAt
    by_cases hle : s.shm.obj.readAddr.toNat ≤ s.shm.obj.writeAddr.toNat
    · have hdist := h.distance.1 hle
      split at hlt <;> omega
    · exact h.wrapped (Nat.not_le.mp hle)
  · rw [hnew]
    exact h.stored.mono (by omega)

/-- A read that finds none counts an error. -/
theorem FifoInv.read_empty (h : FifoInv m s)
    (hd : ¬ (m.blockSize.setWidth 32 : U32) ≤ dataAvail s.shm.obj) :
    FifoInv m (afterRead s (shmRead s.shm m.blockSize)) := by
  have hstate : afterRead s (shmRead s.shm m.blockSize) =
      ⟨⟨{ s.shm.obj with readErrCnt := s.shm.obj.readErrCnt + 1#32 },s.shm.mem⟩,s.accepted,
        s.delivered⟩ := by
    unfold afterRead
    rw [shmRead_empty fun hc => hd hc.2]
    simp
  rw [hstate]
  exact ⟨h.header,h.startAt,h.endAt,h.total,h.readAt,h.writeAt,h.acceptedBlocks,
    h.deliveredBlocks,h.inOrder,h.room,h.wrapped,h.stored⟩

/-- A read keeps the queue: it gives the next block or nothing. -/
theorem FifoInv.keeps_read (h : FifoInv m s) :
    FifoInv m (afterRead s (shmRead s.shm m.blockSize)) := by
  by_cases hd : (m.blockSize.setWidth 32 : U32) ≤ dataAvail s.shm.obj
  · exact h.read_block hd
  · exact h.read_empty hd

/-- Copying and pointer-returning operations do the same. -/
theorem step_cases (m : Region) (s : Fifo) (op : Op m) :
    (op.isWrite = true ∧ ∃ data : Block m,
      step m s op = afterWrite m s data.val (shmWrite s.shm data.val m.dataLen)) ∨
    (op.isWrite = false ∧ step m s op = afterRead s (shmRead s.shm m.blockSize)) := by
  cases op with
  | write data => exact Or.inl ⟨rfl,data,rfl⟩
  | writeBufPtr data => exact Or.inl ⟨rfl,data,congrArg (afterWrite m s data.val) writeThrough_eq⟩
  | read => exact Or.inr ⟨rfl,rfl⟩
  | readBufPtr => exact Or.inr ⟨rfl,congrArg (afterRead s) readThrough_eq⟩

/-- An operation that keeps the queue leaves what is kept. -/
theorem fifoInv_step (h : FifoInv m s) {op : Op m} (hG : KeepsFifo m s op) :
    FifoInv m (step m s op) := by
  rcases step_cases m s op with ⟨hw,data,hstep⟩ | ⟨-,hstep⟩
  · rw [hstep]
    exact h.keeps_write (hG hw)
  · rw [hstep]
    exact h.keeps_read

/-- An operation is right exactly when it keeps the queue. -/
theorem step_exact (h : FifoInv m s) (op : Op m) :
    FifoOk m (step m s op) ∧ RefusesOverwrite m s op ↔ KeepsFifo m s op := by
  unfold RefusesOverwrite KeepsFifo
  rcases step_cases m s op with ⟨hw,data,hstep⟩ | ⟨hr,hstep⟩
  · rw [hstep,hw,imp_iff_right rfl,imp_iff_right rfl]
    exact write_exact h
  · rw [hstep,hr]
    exact iff_of_true ⟨h.keeps_read.ok,fun hw => absurd hw Bool.false_ne_true⟩
      fun hw => absurd hw Bool.false_ne_true

/-- Along every run of reads and writes of one block size on a buffer that
its creator made, the buffer is a queue and refuses to overwrite exactly
when every write keeps the queue. -/
theorem fifo_iff (m : Region) (mem : Mem) (ops : List (Op m)) :
    Along (step m) (FifoOk m) (start m mem) ops ∧
        Guarded (step m) (RefusesOverwrite m) (start m mem) ops ↔
      Guarded (step m) (KeepsFifo m) (start m mem) ops := by
  apply along_and_guarded_iff (I := FifoInv m)
  · exact fun s h => h.ok
  · exact fun s op h hG => fifoInv_step h hG
  · exact fun s op h => step_exact h op
  · exact fifoInv_start m mem

/-- Two blocks of two bytes at the address 0xA3000000. -/
def twoBlocks : Region := ⟨0xA3000000#32,2#16,132#32,by decide,by decide,by decide⟩

/-- The second write into a buffer of two blocks fills it, and readers see
nothing. -/
theorem full_buffer_reads_empty :
    ¬ (Along (step twoBlocks) (FifoOk twoBlocks) (start twoBlocks fun _ => 0#8)
        [.write ⟨[1#8,2#8],rfl⟩,.write ⟨[3#8,4#8],rfl⟩] ∧
      Guarded (step twoBlocks) (RefusesOverwrite twoBlocks) (start twoBlocks fun _ => 0#8)
        [.write ⟨[1#8,2#8],rfl⟩,.write ⟨[3#8,4#8],rfl⟩]) := by
  intro h
  have havail := (along_final h.1).avail
  revert havail
  decide

end EthernetFirmware.ShmFifo
