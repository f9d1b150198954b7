import EthernetFirmware.VepaTable
import EthernetFirmware.KeyedTables
import EthernetFirmware.Lockstep

/-!
# The VEPA table as a finite map

The calls on the table beside the same calls on a finite map from
addresses on VLANs to non-empty sets of virtual ports. The two give the
same answers exactly while no new address is added to a full table and no
port is deleted from an address that other ports only have: the table
reports success in both cases.
-/

namespace EthernetFirmware.VepaMap

open Function BitMasks GuardedRuns Lockstep SlotTables KeyedTables RemoteConfig VepaTable

/-- Address and VLAN, by which entries are found. -/
abbrev Key := MacAddr × U16

/-- The entry is in use. -/
def inUse (e : AddrEntry) : Bool := !e.isFree

/-- What the entry is found by. -/
def key (e : AddrEntry) : Key := (e.hwAddr,e.vlanId)

/-- Port numbers of the entry. -/
def ports (e : AddrEntry) : Finset ℕ := members e.virtPortMask

/-- Finite map from addresses on VLANs to sets of port numbers. -/
abbrev PortMap := Finmap fun _ : Key => Finset ℕ

/-- Ports of a key; none when the map does not have it. -/
def portsAt (m : PortMap) (k : Key) : Finset ℕ := (m.lookup k).getD ∅

/-- Calls on the table. -/
inductive Call where
  /-- `EthFwVepa_addAddr`. -/
  | add (hwAddr : MacAddr) (vlanId : U16) (virtPort : PortId)
  /-- `EthFwVepa_delAddr`. -/
  | del (hwAddr : MacAddr) (vlanId : U16) (virtPort : PortId)
  /-- `EthFwVepa_flushTable`. -/
  | flush
  /-- `EthFwVepa_getVirtPortMask`. -/
  | getMask (hwAddr : MacAddr) (vlanId : U16)
  /-- `EthFwVepa_getUseCnt`. -/
  | useCnt

/-- What a call returns. -/
inductive Answer where
  /-- Whether an add or a delete succeeded. -/
  | done (ok : Bool)
  /-- The table was flushed. -/
  | flushed
  /-- Ports a query found. -/
  | found (ports : Option (Finset ℕ))
  /-- Number of entries in use. -/
  | count (n : ℕ)
  deriving DecidableEq

/-- A call on the table. -/
def onTable (t : Table) : Call → Answer × Table
  | .add hwAddr vlanId virtPort =>
    let r := addAddr t hwAddr vlanId virtPort
    (.done (decide (r.1 = sok)),r.2)
  | .del hwAddr vlanId virtPort =>
    let r := delAddr t hwAddr vlanId virtPort
    (.done (decide (r.1 = sok)),r.2)
  | .flush => (.flushed,flushTable)
  | .getMask hwAddr vlanId => (.found ((getVirtPortMask t hwAddr vlanId).map members),t)
  | .useCnt => (.count (getUseCnt t),t)

/-- The map without a port of a key; a key without ports goes. -/
def dropPort (m : PortMap) (k : Key) (n : ℕ) : PortMap :=
  if (portsAt m k).erase n = ∅ then m.erase k else m.insert k ((portsAt m k).erase n)

/-- The same call on a finite map of bounded size. -/
def onMap (m : PortMap) : Call → Answer × PortMap
  | .add hwAddr vlanId virtPort =>
    let k := (hwAddr,vlanId)
    if k ∈ m ∨ m.keys.card < tableSize then
      (.done true,m.insert k (insert virtPort.val.toNat (portsAt m k)))
    else (.done false,m)
  | .del hwAddr vlanId virtPort =>
    let k := (hwAddr,vlanId)
    if virtPort.val.toNat ∈ portsAt m k then (.done true,dropPort m k virtPort.val.toNat)
    else (.done false,m)
  | .flush => (.flushed,∅)
  | .getMask hwAddr vlanId => (.found (m.lookup (hwAddr,vlanId)),m)
  | .useCnt => (.count m.keys.card,m)

/-- The table holds the map, whose keys all have ports. -/
structure Represents (t : Table) (m : PortMap) : Prop where
  /-- Entries in use are the pairs of the map. -/
  maps : Holds inUse key ports t m
  /-- No key is without a port. -/
  nonempty : ∀ k ps, m.lookup k = some ps → ps.Nonempty

/-- The table answers the call as a map would: an add finds its key or a
free entry, and a delete does not find its key without the port. -/
def AnswersAsMap (t : Table) : Call → Prop
  | .add hwAddr vlanId _ => Known t hwAddr vlanId ∨ HasRoom t
  | .del hwAddr vlanId virtPort => ∀ mask, getVirtPortMask t hwAddr vlanId = some mask →
    isSet mask virtPort.val.toNat = true
  | _ => True

variable {t : Table} {m : PortMap} {hwAddr : MacAddr} {vlanId : U16} {p : PortId}
  {i : Fin tableSize} {b : AddrEntry}

/-- The scan of the code is the look-up of a key. -/
theorem getMcastInfo_eq : getMcastInfo t hwAddr vlanId = slotOf inUse key t (hwAddr,vlanId) := by
  have hfor : AddrEntry.isFor hwAddr vlanId =
      fun e => inUse e && decide (key e = (hwAddr,vlanId)) := by
    funext e
    simp [AddrEntry.isFor,inUse,key,Bool.and_assoc,Bool.and_comm (decide (e.vlanId = vlanId))]
  unfold getMcastInfo slotOf
  rw [hfor]

/-- An initialised table holds nothing. -/
theorem represents_init (o : VepaObj) :
    Represents (VepaTable.init true o).2.remoteCoreVepaTable ∅ := by
  refine ⟨holds_empty fun i => ?_,fun k ps h => ?_⟩
  · simp [VepaTable.init,inUse]
  · simp at h

theorem represents_flush : Represents flushTable ∅ := by
  refine ⟨holds_empty fun i => ?_,fun k ps h => ?_⟩
  · simp [flushTable,inUse]
  · simp at h

/-- A query reads the map. -/
theorem Represents.getMask (h : Represents t m) :
    (getVirtPortMask t hwAddr vlanId).map members = m.lookup (hwAddr,vlanId) := by
  rw [h.maps.lookup,entryOf,getVirtPortMask,getMcastInfo_eq,Option.map_map,Option.map_map]
  rfl

/-- The use count is the number of keys. -/
theorem Represents.useCnt (h : Represents t m) : getUseCnt t = m.keys.card := h.maps.card.symm

theorem Represents.known_iff (h : Represents t m) :
    Known t hwAddr vlanId ↔ (hwAddr,vlanId) ∈ m := by
  rw [h.maps.mem_iff,Known,getMcastInfo_eq,Option.isSome_iff_ne_none,entryOf,Ne,Ne,
    Option.map_eq_none_iff]

theorem Represents.room_iff (h : Represents t m) : HasRoom t ↔ m.keys.card < tableSize := by
  rw [h.maps.card,slotCount_lt_iff,hasRoom_iff]
  simp [inUse]

/-- A port of a key is a bit of its mask. -/
theorem Represents.port_iff (h : Represents t m) :
    p.val.toNat ∈ portsAt m (hwAddr,vlanId) ↔
      ∃ mask, getVirtPortMask t hwAddr vlanId = some mask ∧ isSet mask p.val.toNat = true := by
  unfold portsAt
  rw [← h.getMask]
  cases getVirtPortMask t hwAddr vlanId with
  | none => simp
  | some mask => simp

/-- The entry a known key is found in. -/
theorem Represents.slot (h : Represents t m) (hk : (hwAddr,vlanId) ∈ m) :
    ∃ i, getMcastInfo t hwAddr vlanId = some i ∧ slotOf inUse key t (hwAddr,vlanId) = some i ∧
      portsAt m (hwAddr,vlanId) = members (t i).virtPortMask := by
  obtain ⟨i,hi,hv⟩ := h.maps.slot hk
  refine ⟨i,getMcastInfo_eq.trans hi,hi,?_⟩
  rw [portsAt,hv]
  rfl

theorem nonempty_insert {k : Key} {ps : Finset ℕ} (hps : ps.Nonempty)
    (h : ∀ l qs, m.lookup l = some qs → qs.Nonempty) :
    ∀ l qs, (m.insert k ps).lookup l = some qs → qs.Nonempty := by
  intro l qs hl
  by_cases hlk : l = k
  · subst hlk
    rw [Finmap.lookup_insert,Option.some.injEq] at hl
    rwa [← hl]
  · rw [Finmap.lookup_insert_of_ne _ hlk] at hl
    exact h l qs hl

theorem nonempty_erase {k : Key} (h : ∀ l qs, m.lookup l = some qs → qs.Nonempty) :
    ∀ l qs, (m.erase k).lookup l = some qs → qs.Nonempty := by
  intro l qs hl
  by_cases hlk : l = k
  · subst hlk
    rw [Finmap.lookup_erase] at hl
    contradiction
  · rw [Finmap.lookup_erase_ne hlk] at hl
    exact h l qs hl

/-- An add that finds its key or a free entry adds the port to the key. -/
theorem Represents.addAddr (h : Represents t m)
    (hroom : (hwAddr,vlanId) ∈ m ∨ m.keys.card < tableSize) :
    Represents (addAddr t hwAddr vlanId p).2
      (m.insert (hwAddr,vlanId) (insert p.val.toNat (portsAt m (hwAddr,vlanId)))) := by
  refine ⟨?_,nonempty_insert (Finset.insert_nonempty ..) h.nonempty⟩
  unfold VepaTable.addAddr
  by_cases hk : (hwAddr,vlanId) ∈ m
  · obtain ⟨i,hi,hslot,hps⟩ := h.slot hk
    obtain ⟨hl,hkey⟩ := live_of_slotOf hslot
    simp only [hi]
    rw [hps,← members_setBit p.toNat_lt]
    exact h.maps.rewrite hslot hl hkey
  · have hnone : getMcastInfo t hwAddr vlanId = none := getMcastInfo_eq.trans (h.maps.noSlot hk)
    obtain ⟨i,hi⟩ := Option.isSome_iff_exists.mp (h.room_iff.mpr (hroom.resolve_left hk))
    have hfree : (t i).isFree = true := (firstSlot_eq_some_iff.mp hi).1
    have hps : insert p.val.toNat (portsAt m (hwAddr,vlanId)) =
        members (bit p.val.toNat : U32) := by
      rw [members_bit p.toNat_lt,portsAt,Finmap.lookup_eq_none.mpr hk]
      rfl
    simp only [hnone,hi]
    rw [hps]
    exact h.maps.fill (by simp [inUse,hfree]) hk rfl rfl

/-- A delete of a port of a key removes it. -/
theorem Represents.delAddr (h : Represents t m)
    (hp : p.val.toNat ∈ portsAt m (hwAddr,vlanId)) :
    (delAddr t hwAddr vlanId p).1 = sok ∧
      Represents (delAddr t hwAddr vlanId p).2 (dropPort m (hwAddr,vlanId) p.val.toNat) := by
  have hk : (hwAddr,vlanId) ∈ m := by
    by_contra hk
    rw [portsAt,Finmap.lookup_eq_none.mpr hk] at hp
    simp at hp
  obtain ⟨i,hi,hslot,hps⟩ := h.slot hk
  obtain ⟨hl,hkey⟩ := live_of_slotOf hslot
  have herase : (portsAt m (hwAddr,vlanId)).erase p.val.toNat =
      members (clearBit (t i).virtPortMask p.val.toNat) := by
    rw [hps,members_clearBit]
  unfold VepaTable.delAddr dropPort
  simp only [hi]
  rw [herase]
  by_cases hz : clearBit (t i).virtPortMask p.val.toNat = 0#32
  · rw [if_pos hz,if_pos (members_eq_empty_iff.mpr hz)]
    exact ⟨rfl,h.maps.clear hslot rfl,nonempty_erase h.nonempty⟩
  · rw [if_neg hz,if_neg (mt members_eq_empty_iff.mp hz)]
    exact ⟨rfl,h.maps.rewrite hslot hl hkey,
      nonempty_insert (members_nonempty_iff.mpr hz) h.nonempty⟩

/-- A delete of an unknown key fails without effect. -/
theorem delAddr_unknown (h : ¬ Known t hwAddr vlanId) : delAddr t hwAddr vlanId p = (efail,t) := by
  have hnone : getMcastInfo t hwAddr vlanId = none := by simpa [Known] using h
  unfold VepaTable.delAddr
  simp only [hnone]

theorem Represents.answers_add_iff (h : Represents t m) :
    AnswersAsMap t (.add hwAddr vlanId p) ↔
      (hwAddr,vlanId) ∈ m ∨ m.keys.card < tableSize :=
  or_congr h.known_iff h.room_iff

section Maps

variable {k l : Key} {n : ℕ} {ps : Finset ℕ}

theorem portsAt_insert : portsAt (m.insert k ps) k = ps := by
  unfold portsAt
  rw [Finmap.lookup_insert]
  rfl

theorem portsAt_insert_of_ne (h : l ≠ k) : portsAt (m.insert k ps) l = portsAt m l := by
  unfold portsAt
  rw [Finmap.lookup_insert_of_ne _ h]

theorem portsAt_dropPort : portsAt (dropPort m k n) k = (portsAt m k).erase n := by
  unfold dropPort
  by_cases he : (portsAt m k).erase n = ∅
  · rw [if_pos he,he]
    unfold portsAt
    rw [Finmap.lookup_erase]
    rfl
  · rw [if_neg he,portsAt_insert]

theorem portsAt_dropPort_of_ne (h : l ≠ k) : portsAt (dropPort m k n) l = portsAt m l := by
  unfold dropPort
  by_cases he : (portsAt m k).erase n = ∅
  · rw [if_pos he]
    unfold portsAt
    rw [Finmap.lookup_erase_ne h]
  · rw [if_neg he,portsAt_insert_of_ne h]

end Maps

theorem mem_of_portsAt {k : Key} {n : ℕ} (h : n ∈ portsAt m k) : k ∈ m := by
  by_contra hk
  unfold portsAt at h
  rw [Finmap.lookup_eq_none.mpr hk] at h
  exact absurd h (Finset.notMem_empty n)

/-- A key is known exactly when it has a port. -/
theorem Represents.known_iff_nonempty (h : Represents t m) :
    Known t hwAddr vlanId ↔ (portsAt m (hwAddr,vlanId)).Nonempty := by
  rw [h.known_iff,Finmap.mem_iff]
  unfold portsAt
  constructor
  · rintro ⟨ps,hps⟩
    rw [hps]
    exact h.nonempty _ ps hps
  · rintro ⟨n,hn⟩
    cases hl : m.lookup (hwAddr,vlanId) with
    | none =>
      rw [hl] at hn
      exact absurd hn (Finset.notMem_empty n)
    | some ps => exact ⟨ps,rfl⟩

/-- The mask found for a key is its set of ports. -/
theorem Represents.members_of_getMask {mask : U32} (h : Represents t m)
    (hm : getVirtPortMask t hwAddr vlanId = some mask) :
    members mask = portsAt m (hwAddr,vlanId) := by
  have hl : (getVirtPortMask t hwAddr vlanId).map members = m.lookup (hwAddr,vlanId) := h.getMask
  rw [hm] at hl
  unfold portsAt
  rw [← hl]
  rfl

/-- Deleting a port that its key does not have changes nothing. -/
theorem Represents.delAddr_absent (h : Represents t m) (hk : Known t hwAddr vlanId)
    (hp : p.val.toNat ∉ portsAt m (hwAddr,vlanId)) :
    VepaTable.delAddr t hwAddr vlanId p = (sok,t) := by
  obtain ⟨i,hi,-,hps⟩ := h.slot (h.known_iff.mp hk)
  rw [hps,mem_members,Bool.not_eq_true] at hp
  have hne : (t i).virtPortMask ≠ 0#32 := by
    obtain ⟨n,hn⟩ := h.known_iff_nonempty.mp hk
    rw [hps,mem_members] at hn
    exact ne_zero_of_isSet hn
  unfold VepaTable.delAddr
  rw [hi]
  dsimp only
  rw [clearBit_of_not hp,if_neg hne]
  exact Prod.ext rfl (update_eq_self i t)

/-- A call of the table is the call of the map exactly when the table
answers as a map. -/
theorem represents_both_iff (h : Represents t m) (c : Call) :
    Represents (next onTable t c) (next onMap m c) ∧ (onTable t c).1 = (onMap m c).1 ↔
      AnswersAsMap t c := by
  cases c with
  | add hwAddr vlanId p =>
    unfold next
    rw [h.answers_add_iff]
    by_cases hroom : (hwAddr,vlanId) ∈ m ∨ m.keys.card < tableSize
    · simp only [onTable,onMap,if_pos hroom,addAddr_status]
      exact iff_of_true ⟨h.addAddr hroom,rfl⟩ hroom
    · simp only [onTable,onMap,if_neg hroom,addAddr_status]
      exact iff_of_false (fun hb => by simp at hb) hroom
  | del hwAddr vlanId p =>
    unfold next AnswersAsMap
    by_cases hp : p.val.toNat ∈ portsAt m (hwAddr,vlanId)
    · obtain ⟨hok,hrep⟩ := h.delAddr hp
      obtain ⟨mask,hmask,hbit⟩ := h.port_iff.mp hp
      simp only [onTable,onMap,if_pos hp,hok,hmask,Option.some.injEq]
      exact iff_of_true ⟨hrep,rfl⟩ fun _ hm => hm ▸ hbit
    · by_cases hk : Known t hwAddr vlanId
      · have hok : (delAddr t hwAddr vlanId p).1 = sok := delAddr_ok_iff.mpr hk
        obtain ⟨i,hi⟩ := Option.isSome_iff_exists.mp hk
        simp only [onTable,onMap,if_neg hp,hok]
        refine iff_of_false (fun hb => by simp at hb) fun hall => hp (h.port_iff.mpr ?_)
        have hmask : getVirtPortMask t hwAddr vlanId = some (t i).virtPortMask := by
          rw [getVirtPortMask,hi]
          rfl
        exact ⟨_,hmask,hall _ hmask⟩
      · have hnone : getVirtPortMask t hwAddr vlanId = none := by
          simpa [Known,getVirtPortMask] using hk
        simp only [onTable,onMap,if_neg hp,delAddr_unknown hk,hnone]
        exact iff_of_true ⟨h,rfl⟩ fun _ hm => by contradiction
  | flush => exact iff_of_true ⟨represents_flush,rfl⟩ trivial
  | getMask hwAddr vlanId => exact iff_of_true ⟨h,congrArg Answer.found h.getMask⟩ trivial
  | useCnt => exact iff_of_true ⟨h,congrArg Answer.count h.useCnt⟩ trivial

/-- From a table and its map, the calls agree exactly when each call is one
that the table answers as a map. -/
theorem agree_iff_answersAsMap (h : Represents t m) (calls : List Call) :
    Agree onTable onMap Represents (t,m) calls ↔ Guarded (next onTable) AnswersAsMap t calls := by
  rw [agree_iff_guarded (G := fun s c => AnswersAsMap s.1 c)
    (fun s c h => represents_both_iff h c) h]
  exact guarded_both

/-- Calls on an initialised table are answered as a finite map answers
them exactly when no new address meets a full table and no port is deleted
from an address that other ports only have. -/
theorem onTable_refines_map_iff (o : VepaObj) (calls : List Call) :
    Agree onTable onMap Represents ((VepaTable.init true o).2.remoteCoreVepaTable,∅) calls ↔
      Guarded (next onTable) AnswersAsMap (VepaTable.init true o).2.remoteCoreVepaTable calls :=
  agree_iff_answersAsMap (represents_init o) calls

/-- A group address. -/
def firstGroup : MacAddr := ⟨1#8,0#8,0#8,0#8,0#8,1#8⟩

/-- The group address is added on one VLAN after the other. -/
def addsOnVlans (n : ℕ) : List Call :=
  (List.range n).map fun i => .add firstGroup (BitVec.ofNat 16 i) switchPort

/-- The table after an initialisation. -/
def emptyTable : Table :=
  (VepaTable.init true ⟨flushTable,pktDupFlowIdxUndefined⟩).2.remoteCoreVepaTable

/-- One port adds a group address and another port deletes it: the delete
reports success although the port is not in the set. An add to a full table
reports success although the address is not stored. -/
theorem delete_of_absent_port_succeeds :
    ¬ Agree onTable onMap Represents (emptyTable,∅)
        [.add firstGroup 5#16 switchPort,
          .del firstGroup 5#16 ⟨switchPortLast,Or.inr (by decide)⟩] ∧
      ¬ Agree onTable onMap Represents (emptyTable,∅)
        (addsOnVlans tableSize ++ [.add firstGroup 100#16 switchPort]) := by
  constructor
  · intro h
    have hguard := (agree_iff_answersAsMap (represents_init _) _).mp h
    exact absurd (hguard.2.1 (bit 25) (by decide)) (by decide)
  · intro h
    have hguard := (agree_iff_answersAsMap (represents_init _) _).mp h
    have hlast := (guarded_concat.mp hguard).2
    have hfull : ¬ AnswersAsMap (run (next onTable) emptyTable (addsOnVlans tableSize))
        (.add firstGroup 100#16 switchPort) := by
      unfold AnswersAsMap
      decide +kernel
    exact hfull hlast

end EthernetFirmware.VepaMap
