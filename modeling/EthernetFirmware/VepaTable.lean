import EthernetFirmware.RemoteConfig
import EthernetFirmware.SlotTables

/-!
# VEPA table

The table that tells the packet duplication flow which virtual ports
receive a multicast address on a VLAN. A pair of address and VLAN has at
most the first of its entries in use. A new pair takes the first free
entry; when none is free the pair is dropped and the call still succeeds.
Removing the last port of a pair frees its entry.
-/

namespace EthernetFirmware.VepaTable

open Function BitMasks SlotTables RemoteConfig

/-- `ETHFW_VEPA_TABLE_SIZE`. -/
def tableSize : ℕ := 32

/-- `EthFwVepa_AddrEntry`. -/
structure AddrEntry where
  /-- Virtual ports that need the packet. -/
  virtPortMask : U32
  /-- Shared multicast or broadcast address. -/
  hwAddr : MacAddr
  /-- Inner VLAN. -/
  vlanId : U16
  /-- The entry is free. -/
  isFree : Bool
  deriving DecidableEq

/-- `remoteCoreVepaTable`. -/
abbrev Table := Fin tableSize → AddrEntry

/-- The address an entry is cleared to. -/
def zeroAddr : MacAddr := ⟨0#8,0#8,0#8,0#8,0#8,0#8⟩

/-- The entry is in use for the address on the VLAN. -/
def AddrEntry.isFor (hwAddr : MacAddr) (vlanId : U16) (e : AddrEntry) : Bool :=
  !e.isFree && decide (e.vlanId = vlanId) && decide (e.hwAddr = hwAddr)

/-- `EthFwVepa_getMcastInfo`. -/
def getMcastInfo (t : Table) (hwAddr : MacAddr) (vlanId : U16) : Option (Fin tableSize) :=
  firstSlot (AddrEntry.isFor hwAddr vlanId) t

/-- First free entry. -/
def freeEntry (t : Table) : Option (Fin tableSize) := firstSlot AddrEntry.isFree t

/-- `EthFwVepa_addAddr`. -/
def addAddr (t : Table) (hwAddr : MacAddr) (vlanId : U16) (virtPort : PortId) :
    Status × Table :=
  match getMcastInfo t hwAddr vlanId with
  | some i =>
    (sok,update t i { t i with virtPortMask := setBit (t i).virtPortMask virtPort.val.toNat })
  | none =>
    match freeEntry t with
    | some i => (sok,update t i ⟨bit virtPort.val.toNat,hwAddr,vlanId,false⟩)
    -- No room: the code leaves its loop without reporting an error.
    | none => (sok,t)

/-- `EthFwVepa_delAddr`. -/
def delAddr (t : Table) (hwAddr : MacAddr) (vlanId : U16) (virtPort : PortId) :
    Status × Table :=
  match getMcastInfo t hwAddr vlanId with
  | some i =>
    let virtPortMask := clearBit (t i).virtPortMask virtPort.val.toNat
    if virtPortMask = 0#32 then (sok,update t i ⟨virtPortMask,zeroAddr,0#16,true⟩)
    else (sok,update t i { t i with virtPortMask := virtPortMask })
  | none => (efail,t)

/-- `EthFwVepa_Obj`: the table and the flow duplicated packets arrive at. -/
structure VepaObj where
  /-- The table. -/
  remoteCoreVepaTable : Table
  /-- Flow where packets to be duplicated arrive. -/
  packetDuplicationFlowIdx : U32

/-- `ETHFW_VEPA_PKT_DUP_FLOW_IDX_UNDEFINED`. -/
def pktDupFlowIdxUndefined : U32 := 0xFFFF#32

/-- `EthFwVepa_addMcastPolicer`, with the status of its ioctl. -/
def addMcastPolicer (o : VepaObj) (ioctl : Status) : Status :=
  if o.packetDuplicationFlowIdx = pktDupFlowIdxUndefined then efail else ioctl

/-- `EthFwVepa_delMcastPolicer`, with the status of its ioctl. -/
def delMcastPolicer (ioctl : Status) : Status := ioctl

/-- `EthFwVepa_flushTable`. -/
def flushTable : Table := fun _ => ⟨0#32,zeroAddr,0#16,true⟩

/-- `EthFwVepa_init`, given whether the mutex was created. -/
def init (mutexCreated : Bool) (o : VepaObj) : Status × VepaObj :=
  if mutexCreated then
    (sok,⟨fun i => { o.remoteCoreVepaTable i with isFree := true },pktDupFlowIdxUndefined⟩)
  else (efail,o)

/-- `EthFwVepa_getVirtPortMask`; without a result the call fails. -/
def getVirtPortMask (t : Table) (hwAddr : MacAddr) (vlanId : U16) : Option U32 :=
  (getMcastInfo t hwAddr vlanId).map fun i => (t i).virtPortMask

/-- `EthFwVepa_getUseCnt`. -/
def getUseCnt (t : Table) : ℕ := slotCount (fun e => !e.isFree) t

/-- The table has an entry for the pair. -/
def Known (t : Table) (hwAddr : MacAddr) (vlanId : U16) : Prop :=
  (getMcastInfo t hwAddr vlanId).isSome = true

/-- The table has a free entry. -/
def HasRoom (t : Table) : Prop := (freeEntry t).isSome = true

instance (t : Table) (a : MacAddr) (v : U16) : Decidable (Known t a v) :=
  inferInstanceAs (Decidable (_ = true))

instance (t : Table) : Decidable (HasRoom t) := inferInstanceAs (Decidable (_ = true))

variable {t : Table} {a : MacAddr} {v : U16} {p : PortId}

theorem known_iff : Known t a v ↔ ∃ i, (t i).isFor a v = true := by
  unfold Known getMcastInfo
  rw [Option.isSome_iff_ne_none,Ne,firstSlot_eq_none_iff]
  simp

theorem hasRoom_iff : HasRoom t ↔ ∃ i, (t i).isFree = true := by
  unfold HasRoom freeEntry
  rw [Option.isSome_iff_ne_none,Ne,firstSlot_eq_none_iff]
  simp

/-- Adding never fails. -/
@[simp] theorem addAddr_status : (addAddr t a v p).1 = sok := by
  unfold addAddr
  split
  · rfl
  · split <;> rfl

/-- Removing succeeds exactly when the pair has an entry. -/
theorem delAddr_ok_iff : (delAddr t a v p).1 = sok ↔ Known t a v := by
  unfold delAddr Known
  cases h : getMcastInfo t a v with
  | none => simp [sok,efail]
  | some i =>
    dsimp only
    split <;> simp

/-- After an add the pair has an entry unless it had none and found no room. -/
theorem known_addAddr_iff : Known (addAddr t a v p).2 a v ↔ Known t a v ∨ HasRoom t := by
  rw [hasRoom_iff]
  unfold addAddr
  cases hk : getMcastInfo t a v with
  | some i =>
    have hi : (t i).isFor a v = true := (firstSlot_eq_some_iff.mp hk).1
    refine iff_of_true (known_iff.mpr ⟨i,?_⟩) (Or.inl (known_iff.mpr ⟨i,hi⟩))
    dsimp only
    rw [update_self]
    exact hi
  | none =>
    have hno : ¬ Known t a v := by simp [Known,hk]
    cases hf : freeEntry t with
    | some i =>
      have hi : (t i).isFree = true := (firstSlot_eq_some_iff.mp hf).1
      refine iff_of_true (known_iff.mpr ⟨i,?_⟩) (Or.inr ⟨i,hi⟩)
      dsimp only
      rw [update_self]
      simp [AddrEntry.isFor]
    | none =>
      have hfull := firstSlot_eq_none_iff.mp hf
      refine iff_of_false hno ?_
      rintro (h | ⟨i,hi⟩)
      · exact hno h
      · rw [hfull i] at hi
        exact absurd hi (by decide)

end EthernetFirmware.VepaTable
