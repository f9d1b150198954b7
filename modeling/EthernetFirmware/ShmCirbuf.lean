import EthernetFirmware.RemoteConfig
import EthernetFirmware.RingBuffers

/-!
# Shared-memory circular buffer

The buffer through which audio blocks pass between cores: an object with
the read and the write address, one cache line below the data area. Both
copying and pointer-returning operations compute with 32-bit addresses as
the code does. The memory is a function from addresses to bytes; the
object's own words are kept apart because no operation on an initialised
buffer writes outside the data area.
-/

namespace EthernetFirmware.ShmCirbuf

open RemoteConfig

/-- Contents of the memory. -/
abbrev Mem := U32 → U8

/-- `SHDMEM_MAGIC`. -/
def shdmemMagic : U32 := 0xABCDABCD#32

/-- `CACHE_LINE_SIZE`, the overhead of the object. -/
def cacheLineSize : U32 := 128#32

/-- `ShdMemObj`. -/
structure ShdMemObj where
  /-- Mark of an initialised object. -/
  header : U32
  /-- Address of the next byte to read. -/
  readAddr : U32
  /-- Address of the next byte to write. -/
  writeAddr : U32
  /-- First address of the data area. -/
  startAddr : U32
  /-- Address after the data area. -/
  endAddr : U32
  /-- Set at creation only. -/
  dataAvail : U32
  /-- Reads that found too few bytes. -/
  readErrCnt : U32
  /-- Set at creation only. -/
  writeErrCnt : U32
  /-- Reads that would pass the end of the data area. -/
  readErrorEmpty : U32
  /-- Writes that would pass the end of the data area. -/
  writeErrorFull : U32
  /-- Size of the data area. -/
  totalBufSize : U32
  /-- Mark at the end of the object. -/
  tail : U32

/-- The object and the memory of its data area. -/
structure Shm where
  /-- The object. -/
  obj : ShdMemObj
  /-- The memory. -/
  mem : Mem

/-- The object in cleared memory. -/
def zeroObj : ShdMemObj :=
  ⟨0#32,0#32,0#32,0#32,0#32,0#32,0#32,0#32,0#32,0#32,0#32,0#32⟩

/-- `shm_create`. -/
def shmCreate (obj : ShdMemObj) (startAdd bufSize : U32) : ShdMemObj :=
  if obj.header = shdmemMagic then obj
  else
    let dataAddr := startAdd + cacheLineSize
    let dataSize := bufSize - cacheLineSize
    { header := shdmemMagic, readAddr := dataAddr, writeAddr := dataAddr, startAddr := dataAddr
      endAddr := dataAddr + dataSize, dataAvail := 0#32, readErrCnt := 0#32
      writeErrCnt := 0#32, readErrorEmpty := 0#32, writeErrorFull := 0#32
      totalBufSize := dataSize, tail := shdmemMagic }

/-- The size `aaf_init_shm` gives the buffer: whole blocks and the object. -/
def rxShmBufSize (blockSize totalSize : U32) : U32 :=
  (totalSize - cacheLineSize) / blockSize * blockSize + cacheLineSize

/-- `aaf_init_shm`: the memory is cleared before the object is created. -/
def aafInitShm (mem : Mem) (address blockSize totalSize : U32) : Shm where
  obj := shmCreate zeroObj address (rxShmBufSize blockSize totalSize)
  mem := fun a => if a - address < rxShmBufSize blockSize totalSize then 0#8 else mem a

/-- Bytes a reader computes as available. -/
def dataAvail (obj : ShdMemObj) : U32 :=
  if obj.readAddr ≤ obj.writeAddr then obj.writeAddr - obj.readAddr
  -- Below the read address the write address is subtracted, not added.
  else obj.totalBufSize - obj.readAddr - obj.writeAddr

/-- An address moved over a block; at the end of the data area it starts
anew. -/
def advance (obj : ShdMemObj) (addr len : U32) : U32 :=
  if addr + len = obj.endAddr then obj.startAddr else addr + len

/-- What a read leaves: the buffer, what it gives, and `*pDataLen`. -/
structure ReadResult (δ : Type*) where
  /-- Buffer after the read. -/
  shm : Shm
  /-- Bytes or address given; none when `pData` is left alone. -/
  pData : Option δ
  /-- Length left for the caller. -/
  dataLen : U16

/-- The part of both reads: `fetch` gives the caller what is at the read
address. -/
def readWith {δ : Type*} (fetch : U32 → δ) (s : Shm) (len : U16) : ReadResult δ :=
  let rqtSize : U32 := len.setWidth 32
  if s.obj.header = shdmemMagic ∧ rqtSize ≤ dataAvail s.obj then
    if s.obj.readAddr + rqtSize ≤ s.obj.endAddr then
      { shm := { s with obj := { s.obj with readAddr := advance s.obj s.obj.readAddr rqtSize } }
        pData := some (fetch s.obj.readAddr)
        dataLen := len }
    else
      { shm := { s with obj := { s.obj with readErrorEmpty := s.obj.readErrorEmpty + 1#32 } }
        pData := none
        dataLen := len }
  else
    { shm := { s with obj := { s.obj with readErrCnt := s.obj.readErrCnt + 1#32 } }
      pData := none
      dataLen := 0#16 }

/-- Bytes from an address on. -/
def readBytes (mem : Mem) (addr : U32) (len : ℕ) : List U8 :=
  List.ofFn fun i : Fin len => mem (addr + BitVec.ofNat 32 i)

/-- Memory with bytes written from an address on. -/
def writeBytes (mem : Mem) (addr : U32) (data : List U8) (a : U32) : U8 :=
  data[(a - addr).toNat]?.getD (mem a)

/-- `shm_read`. -/
def shmRead (s : Shm) (len : U16) : ReadResult (List U8) :=
  readWith (fun addr => readBytes s.mem addr len.toNat) s len

/-- `shm_readBufPtr`. -/
def shmReadBufPtr (s : Shm) (len : U16) : ReadResult U32 := readWith (fun addr => addr) s len

/-- A write goes ahead: the block ends within the data area. -/
def Accepts (obj : ShdMemObj) (dataLen : U32) : Prop :=
  obj.header = shdmemMagic ∧ obj.writeAddr + dataLen ≤ obj.endAddr

instance (obj : ShdMemObj) (dataLen : U32) : Decidable (Accepts obj dataLen) :=
  inferInstanceAs (Decidable (_ ∧ _))

/-- The part of both writes: `store` is what is done at the write address.
The result is that address; none when the write does not go ahead. -/
def writeWith (store : Mem → U32 → Mem) (s : Shm) (dataLen : U32) : Shm × Option U32 :=
  if Accepts s.obj dataLen then
    ({ obj := { s.obj with writeAddr := advance s.obj s.obj.writeAddr dataLen }
       mem := store s.mem s.obj.writeAddr },some s.obj.writeAddr)
  else if s.obj.header = shdmemMagic then
    ({ s with obj := { s.obj with writeErrorFull := s.obj.writeErrorFull + 1#32 } },none)
  else (s,none)

/-- `shm_write`. -/
def shmWrite (s : Shm) (data : List U8) (dataLen : U32) : Shm :=
  (writeWith (fun mem addr => writeBytes mem addr data) s dataLen).1

/-- `shm_writeBufPtr`; without an address `pData` is left alone. -/
def shmWriteBufPtr (s : Shm) (dataLen : U32) : Shm × Option U32 :=
  writeWith (fun mem _ => mem) s dataLen

/-- `shm_writeBufPtr` and the caller's block stored through the address. -/
def writeThrough (s : Shm) (data : List U8) (dataLen : U32) : Shm :=
  let r := shmWriteBufPtr s dataLen
  match r.2 with
  | some addr => { r.1 with mem := writeBytes r.1.mem addr data }
  | none => r.1

/-- `shm_readBufPtr` and the bytes the caller finds at the address. -/
def readThrough (s : Shm) (len : U16) : ReadResult (List U8) :=
  let r := shmReadBufPtr s len
  { shm := r.shm
    pData := r.pData.map fun addr => readBytes r.shm.mem addr len.toNat
    dataLen := r.dataLen }

variable {s : Shm} {data : List U8} {dataLen : U32} {len : U16}

/-- Both writes leave the same buffer. -/
theorem writeThrough_eq : writeThrough s data dataLen = shmWrite s data dataLen := by
  unfold writeThrough shmWriteBufPtr shmWrite writeWith
  by_cases ha : Accepts s.obj dataLen
  · simp only [if_pos ha]
  · by_cases hh : s.obj.header = shdmemMagic
    · simp only [if_neg ha,if_pos hh]
    · simp only [if_neg ha,if_neg hh]

/-- Both reads give the same bytes and leave the same buffer. -/
theorem readThrough_eq : readThrough s len = shmRead s len := by
  unfold readThrough shmReadBufPtr shmRead readWith
  by_cases ha : s.obj.header = shdmemMagic ∧ len.setWidth 32 ≤ dataAvail s.obj
  · by_cases he : s.obj.readAddr + len.setWidth 32 ≤ s.obj.endAddr
    · simp only [if_pos ha,if_pos he,Option.map_some]
    · simp only [if_pos ha,if_neg he,Option.map_none]
  · simp only [if_neg ha,Option.map_none]

/-- A write that does not go ahead stores nothing and moves nothing. -/
theorem shmWrite_refused (data : List U8) (h : ¬ Accepts s.obj dataLen) :
    (shmWrite s data dataLen).mem = s.mem ∧ ∃ c, (shmWrite s data dataLen).obj =
      { s.obj with writeErrorFull := c } := by
  unfold shmWrite writeWith
  by_cases hh : s.obj.header = shdmemMagic
  · simp only [if_neg h,if_pos hh]
    exact ⟨trivial,_,rfl⟩
  · simp only [if_neg h,if_neg hh]
    exact ⟨trivial,_,rfl⟩

theorem shmWrite_accepted (h : Accepts s.obj dataLen) : shmWrite s data dataLen =
    { obj := { s.obj with writeAddr := advance s.obj s.obj.writeAddr dataLen }
      mem := writeBytes s.mem s.obj.writeAddr data } := by
  unfold shmWrite writeWith
  rw [if_pos h]

/-- A read that finds too few bytes gives none. -/
theorem shmRead_empty (h : ¬ (s.obj.header = shdmemMagic ∧ len.setWidth 32 ≤ dataAvail s.obj)) :
    shmRead s len = ⟨{ s with obj := { s.obj with readErrCnt := s.obj.readErrCnt + 1#32 } },
      none,0#16⟩ := by
  unfold shmRead readWith
  rw [if_neg h]

/-- A read that finds a whole block within the data area gives it. -/
theorem shmRead_block (hh : s.obj.header = shdmemMagic) (hd : len.setWidth 32 ≤ dataAvail s.obj)
    (he : s.obj.readAddr + len.setWidth 32 ≤ s.obj.endAddr) :
    shmRead s len =
      ⟨{ s with obj := { s.obj with readAddr := advance s.obj s.obj.readAddr (len.setWidth 32) } },
        some (readBytes s.mem s.obj.readAddr len.toNat),len⟩ := by
  unfold shmRead readWith
  rw [if_pos ⟨hh,hd⟩]
  dsimp only
  rw [if_pos he]

end EthernetFirmware.ShmCirbuf
