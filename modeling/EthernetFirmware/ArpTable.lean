import EthernetFirmware.RemoteConfig
import EthernetFirmware.KeyedTables

/-!
# Proxy ARP table

The table from which the server answers ARP requests in place of the
remote cores. An address on a VLAN has at most one entry in use: an add
rewrites it or takes the first free entry, and a delete frees it. The
multicast test of IPv4 addresses belongs to the network stack and is a
parameter.
-/

namespace EthernetFirmware.ArpTable

open Function SlotTables KeyedTables RemoteConfig

/-- `ETHFW_ARP_TABLE_SIZE`. -/
def tableSize : ℕ := 16

/-- `EthFwArp_AddrEntry`. -/
structure AddrEntry where
  /-- Address of the remote core. -/
  ipAddr : U32
  /-- Its Ethernet address. -/
  hwAddr : MacAddr
  /-- VLAN of the address. -/
  vlanId : U16
  /-- The entry is free. -/
  isFree : Bool
  deriving DecidableEq

/-- `remoteCoreArpTable`. -/
abbrev Table := Fin tableSize → AddrEntry

/-- Address and VLAN, by which entries are found. -/
abbrev Key := U32 × U16

/-- The entry is in use. -/
def AddrEntry.inUse (e : AddrEntry) : Bool := !e.isFree

/-- What the entry is found by. -/
def AddrEntry.key (e : AddrEntry) : Key := (e.ipAddr,e.vlanId)

/-- The entry is in use for the address on the VLAN. -/
def AddrEntry.isFor (ipAddr : U32) (vlanId : U16) (e : AddrEntry) : Bool :=
  !e.isFree && decide (e.vlanId = vlanId) && decide (e.ipAddr = ipAddr)

/-- First entry in use for the address on the VLAN. -/
def findEntry (t : Table) (ipAddr : U32) (vlanId : U16) : Option (Fin tableSize) :=
  firstSlot (AddrEntry.isFor ipAddr vlanId) t

/-- First free entry. -/
def freeEntry (t : Table) : Option (Fin tableSize) := firstSlot AddrEntry.isFree t

/-- `EthFwArp_init`, given whether the mutex was created. -/
def init (mutexCreated : Bool) (t : Table) : Status × Table :=
  if mutexCreated then (sok,fun i => { t i with isFree := true }) else (efail,t)

/-- `EthFwArp_getHwAddr`; without a result the call fails. -/
def getHwAddr (t : Table) (ipAddr : U32) (vlanId : U16) : Option MacAddr :=
  (findEntry t ipAddr vlanId).map fun i => (t i).hwAddr

/-- `EthFwArp_addAddr`. -/
def addAddr (ismulticast : U32 → Bool) (t : Table) (ipAddr : U32) (hwAddr : MacAddr)
    (vlanId : U16) : Status × Table :=
  if hwAddr.isMcast then (einvalidParams,t)
  else if ismulticast ipAddr then (einvalidParams,t)
  else
    match findEntry t ipAddr vlanId with
    | some i => (sok,update t i { t i with hwAddr := hwAddr })
    | none =>
      match freeEntry t with
      | some i => (sok,update t i ⟨ipAddr,hwAddr,vlanId,false⟩)
      | none => (ealloc,t)

/-- What a deleted entry holds: the VLAN number stays. -/
def AddrEntry.cleared (e : AddrEntry) : AddrEntry :=
  { e with ipAddr := 0#32, hwAddr := ⟨0#8,0#8,0#8,0#8,0#8,0#8⟩, isFree := true }

/-- `EthFwArp_delAddr`. -/
def delAddr (t : Table) (ipAddr : U32) (vlanId : U16) : Status × Table :=
  match findEntry t ipAddr vlanId with
  | some i => (sok,update t i (t i).cleared)
  | none => (efail,t)

/-- `EthFwArp_getUseCnt`. -/
def getUseCnt (t : Table) : ℕ := slotCount AddrEntry.inUse t

/-- Finite map from addresses on VLANs to Ethernet addresses. -/
abbrev AddrMap := Finmap fun _ : Key => MacAddr

/-- The entries in use are those of the map. -/
abbrev Maps (t : Table) (m : AddrMap) : Prop :=
  Holds AddrEntry.inUse AddrEntry.key AddrEntry.hwAddr t m

variable {ismulticast : U32 → Bool} {t : Table} {m : AddrMap} {ipAddr : U32} {hwAddr : MacAddr}
  {vlanId : U16} {i : Fin tableSize}

/-- The scan of the code is the look-up of a key. -/
theorem findEntry_eq : findEntry t ipAddr vlanId =
    slotOf AddrEntry.inUse AddrEntry.key t (ipAddr,vlanId) := by
  have hfor : AddrEntry.isFor ipAddr vlanId =
      fun e => e.inUse && decide (e.key = (ipAddr,vlanId)) := by
    funext e
    simp [AddrEntry.isFor,AddrEntry.inUse,AddrEntry.key,and_comm,Bool.and_assoc]
  unfold findEntry slotOf
  rw [hfor]

/-- An initialised table holds nothing. -/
theorem maps_init (t : Table) : Maps (init true t).2 ∅ := by
  apply holds_empty
  intro i
  simp [init,AddrEntry.inUse]

/-- A look-up reads the map. -/
theorem Maps.getHwAddr (h : Maps t m) : getHwAddr t ipAddr vlanId = m.lookup (ipAddr,vlanId) := by
  rw [h.lookup,entryOf,ArpTable.getHwAddr,findEntry_eq,Option.map_map]
  rfl

/-- The use count is the number of keys. -/
theorem Maps.getUseCnt (h : Maps t m) : getUseCnt t = m.keys.card := h.card.symm

/-- The table has a free entry exactly while keys are fewer than entries. -/
theorem Maps.room_iff (h : Maps t m) :
    m.keys.card < tableSize ↔ ∃ i, (t i).isFree = true := by
  rw [h.card,slotCount_lt_iff]
  simp [AddrEntry.inUse]

/-- A known key is found. -/
theorem Maps.find_of_mem (h : Maps t m) (hk : (ipAddr,vlanId) ∈ m) :
    ∃ i, findEntry t ipAddr vlanId = some i := by
  obtain ⟨i,hi,-⟩ := h.slot hk
  exact ⟨i,findEntry_eq.trans hi⟩

theorem Maps.find_of_notMem (h : Maps t m) (hk : (ipAddr,vlanId) ∉ m) :
    findEntry t ipAddr vlanId = none :=
  findEntry_eq.trans (h.noSlot hk)

/-- An add that finds its key or a free entry stores the pair. -/
theorem Maps.addAddr_ok (h : Maps t m) (hmac : hwAddr.isMcast = false)
    (hip : ismulticast ipAddr = false)
    (hroom : (ipAddr,vlanId) ∈ m ∨ m.keys.card < tableSize) :
    (addAddr ismulticast t ipAddr hwAddr vlanId).1 = sok ∧
      Maps (addAddr ismulticast t ipAddr hwAddr vlanId).2 (m.insert (ipAddr,vlanId) hwAddr) := by
  unfold addAddr
  rw [hmac,hip]
  by_cases hk : (ipAddr,vlanId) ∈ m
  · obtain ⟨i,hi⟩ := h.find_of_mem hk
    have hslot := findEntry_eq.symm.trans hi
    obtain ⟨hl,hkey⟩ := live_of_slotOf hslot
    simp only [hi,Bool.false_eq_true,if_false]
    exact ⟨trivial,h.rewrite hslot hl hkey⟩
  · have hnone := h.find_of_notMem hk
    obtain ⟨j,hj⟩ := h.room_iff.mp (hroom.resolve_left hk)
    cases hf : freeEntry t with
    | none =>
      have hfull := firstSlot_eq_none_iff.mp hf j
      rw [hj] at hfull
      contradiction
    | some i =>
      have hi : (t i).isFree = true := (firstSlot_eq_some_iff.mp hf).1
      simp only [hnone,Bool.false_eq_true,if_false]
      exact ⟨trivial,h.fill (by simp [AddrEntry.inUse,hi]) hk rfl rfl⟩

/-- An add of a multicast address of either kind is rejected. -/
theorem addAddr_mcast (h : hwAddr.isMcast = true ∨ ismulticast ipAddr = true) :
    addAddr ismulticast t ipAddr hwAddr vlanId = (einvalidParams,t) := by
  unfold addAddr
  by_cases hmac : hwAddr.isMcast = true
  · rw [if_pos hmac]
  · rw [if_neg hmac,if_pos (h.resolve_left hmac)]

/-- An add of a new key to a full table fails. -/
theorem Maps.addAddr_full (h : Maps t m) (hmac : hwAddr.isMcast = false)
    (hip : ismulticast ipAddr = false) (hk : (ipAddr,vlanId) ∉ m)
    (hfull : ¬ m.keys.card < tableSize) :
    addAddr ismulticast t ipAddr hwAddr vlanId = (ealloc,t) := by
  have hfree : freeEntry t = none := by
    rw [h.room_iff] at hfull
    push Not at hfull
    exact firstSlot_eq_none_iff.mpr fun i => by simpa using hfull i
  unfold addAddr
  rw [hmac,hip]
  simp only [h.find_of_notMem hk,hfree,Bool.false_eq_true,if_false]

/-- A delete of a known key removes it. -/
theorem Maps.delAddr_ok (h : Maps t m) (hk : (ipAddr,vlanId) ∈ m) :
    (delAddr t ipAddr vlanId).1 = sok ∧
      Maps (delAddr t ipAddr vlanId).2 (m.erase (ipAddr,vlanId)) := by
  obtain ⟨i,hi⟩ := h.find_of_mem hk
  unfold delAddr
  simp only [hi]
  exact ⟨trivial,h.clear (findEntry_eq.symm.trans hi) rfl⟩

/-- A delete of an unknown key fails. -/
theorem Maps.delAddr_fail (h : Maps t m) (hk : (ipAddr,vlanId) ∉ m) :
    delAddr t ipAddr vlanId = (efail,t) := by
  unfold delAddr
  simp only [h.find_of_notMem hk]

end EthernetFirmware.ArpTable
