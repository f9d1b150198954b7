import EthernetFirmware.ArpTable
import EthernetFirmware.Lockstep

/-!
# The proxy ARP table as a finite map

The calls on the table beside the same calls on a finite map with at most
as many keys as the table has entries. After an initialisation that
succeeds, the two give the same answers to every sequence of calls, and a
look-up gives the address of the last add of its key that succeeded and
that no delete followed.
-/

namespace EthernetFirmware.ArpMap

open GuardedRuns Lockstep SlotTables KeyedTables RemoteConfig ArpTable

/-- Calls on the table. -/
inductive Call where
  /-- `EthFwArp_addAddr`. -/
  | add (ipAddr : U32) (hwAddr : MacAddr) (vlanId : U16)
  /-- `EthFwArp_delAddr`. -/
  | del (ipAddr : U32) (vlanId : U16)
  /-- `EthFwArp_getHwAddr`. -/
  | get (ipAddr : U32) (vlanId : U16)
  /-- `EthFwArp_getUseCnt`. -/
  | useCnt

/-- What a call returns. -/
inductive Answer where
  /-- Status of an add or a delete. -/
  | status (status : Status)
  /-- Address a look-up found. -/
  | found (hwAddr : Option MacAddr)
  /-- Number of entries in use. -/
  | count (n : ℕ)
  deriving DecidableEq

section Machines

variable (ismulticast : U32 → Bool)

/-- A call on the table. -/
def onTable (t : Table) : Call → Answer × Table
  | .add ipAddr hwAddr vlanId =>
    let r := addAddr ismulticast t ipAddr hwAddr vlanId
    (.status r.1,r.2)
  | .del ipAddr vlanId =>
    let r := delAddr t ipAddr vlanId
    (.status r.1,r.2)
  | .get ipAddr vlanId => (.found (getHwAddr t ipAddr vlanId),t)
  | .useCnt => (.count (getUseCnt t),t)

/-- The same call on a finite map of bounded size. -/
def onMap (m : AddrMap) : Call → Answer × AddrMap
  | .add ipAddr hwAddr vlanId =>
    if hwAddr.isMcast = true ∨ ismulticast ipAddr = true then (.status einvalidParams,m)
    else if (ipAddr,vlanId) ∈ m ∨ m.keys.card < tableSize then
      (.status sok,m.insert (ipAddr,vlanId) hwAddr)
    else (.status ealloc,m)
  | .del ipAddr vlanId =>
    if (ipAddr,vlanId) ∈ m then (.status sok,m.erase (ipAddr,vlanId)) else (.status efail,m)
  | .get ipAddr vlanId => (.found (m.lookup (ipAddr,vlanId)),m)
  | .useCnt => (.count m.keys.card,m)

end Machines

/-- What a call and its answer say about the address of a key. -/
def noteAdd (k : Key) (known : Option MacAddr) : Call × Answer → Option MacAddr
  | (.add ipAddr hwAddr vlanId,.status s) =>
    if s = sok ∧ (ipAddr,vlanId) = k then some hwAddr else known
  | (.del ipAddr vlanId,.status s) => if s = sok ∧ (ipAddr,vlanId) = k then none else known
  | _ => known

/-- Address of the last add of a key that succeeded and that no
successful delete of the key followed. -/
def lastAdd (k : Key) (known : Option MacAddr) : List (Call × Answer) → Option MacAddr
  | [] => known
  | e :: es => lastAdd k (noteAdd k known e) es

/-- The table holds the map, which is no larger than the table. -/
structure Represents (t : Table) (m : AddrMap) : Prop where
  /-- Entries in use are the pairs of the map. -/
  maps : Maps t m
  /-- The map fits. -/
  fits : m.keys.card ≤ tableSize

/-- Calls on a table answered as on a map that starts empty, with every
look-up giving the latest add. -/
structure RefinesMap (ismulticast : U32 → Bool) (t : Table) (calls : List Call) : Prop where
  /-- Table and map agree along the calls. -/
  agree : Agree (onTable ismulticast) (onMap ismulticast) Represents (t,∅) calls
  /-- A look-up after the calls gives the latest add of its key. -/
  latest : ∀ ipAddr vlanId, getHwAddr (run (next (onTable ismulticast)) t calls) ipAddr vlanId =
    lastAdd (ipAddr,vlanId) none (log (onTable ismulticast) t calls)

variable {ismulticast : U32 → Bool} {t : Table} {m : AddrMap}

theorem represents_of_maps (h : Maps t m) : Represents t m :=
  ⟨h,by rw [h.card]; exact slotCount_le _ t⟩

/-- A call on the table is the call on the map. -/
theorem represents_both (h : Represents t m) (c : Call) :
    Represents (next (onTable ismulticast) t c) (next (onMap ismulticast) m c) ∧
      (onTable ismulticast t c).1 = (onMap ismulticast m c).1 := by
  unfold next
  cases c with
  | add ipAddr hwAddr vlanId =>
    by_cases hmc : hwAddr.isMcast = true ∨ ismulticast ipAddr = true
    · simp only [onTable,onMap,addAddr_mcast hmc,if_pos hmc]
      exact ⟨h,trivial⟩
    · obtain ⟨hmac,hip⟩ := not_or.mp hmc
      rw [Bool.not_eq_true] at hmac hip
      by_cases hroom : (ipAddr,vlanId) ∈ m ∨ m.keys.card < tableSize
      · obtain ⟨hok,hmaps⟩ := h.maps.addAddr_ok hmac hip hroom
        simp only [onTable,onMap,if_neg hmc,if_pos hroom,hok]
        exact ⟨represents_of_maps hmaps,trivial⟩
      · obtain ⟨hk,hfull⟩ := not_or.mp hroom
        simp only [onTable,onMap,if_neg hmc,if_neg hroom,h.maps.addAddr_full hmac hip hk hfull]
        exact ⟨h,trivial⟩
  | del ipAddr vlanId =>
    by_cases hk : (ipAddr,vlanId) ∈ m
    · obtain ⟨hok,hmaps⟩ := h.maps.delAddr_ok hk
      simp only [onTable,onMap,if_pos hk,hok]
      exact ⟨represents_of_maps hmaps,trivial⟩
    · simp only [onTable,onMap,if_neg hk,h.maps.delAddr_fail hk]
      exact ⟨h,trivial⟩
  | get ipAddr vlanId => exact ⟨h,congrArg Answer.found h.maps.getHwAddr⟩
  | useCnt => exact ⟨h,congrArg Answer.count h.maps.getUseCnt⟩

/-- What a call notes about a key is what it leaves in the map. -/
theorem lookup_next_onMap (m : AddrMap) (c : Call) (k : Key) :
    (next (onMap ismulticast) m c).lookup k =
      noteAdd k (m.lookup k) (c,(onMap ismulticast m c).1) := by
  unfold next
  cases c with
  | add ipAddr hwAddr vlanId =>
    by_cases hmc : hwAddr.isMcast = true ∨ ismulticast ipAddr = true
    · simp [onMap,noteAdd,hmc]
    · by_cases hroom : (ipAddr,vlanId) ∈ m ∨ m.keys.card < tableSize
      · simp only [onMap,noteAdd,if_neg hmc,if_pos hroom,true_and]
        by_cases hk : (ipAddr,vlanId) = k
        · rw [if_pos hk,hk,Finmap.lookup_insert]
        · rw [if_neg hk,Finmap.lookup_insert_of_ne _ (Ne.symm hk)]
      · simp only [onMap,noteAdd,if_neg hmc,if_neg hroom,ealloc_ne_sok,false_and,if_false]
  | del ipAddr vlanId =>
    by_cases hmem : (ipAddr,vlanId) ∈ m
    · simp only [onMap,noteAdd,if_pos hmem,true_and]
      by_cases hk : (ipAddr,vlanId) = k
      · rw [if_pos hk,hk,Finmap.lookup_erase]
      · rw [if_neg hk,Finmap.lookup_erase_ne (Ne.symm hk)]
    · simp only [onMap,noteAdd,if_neg hmem,efail_ne_sok,false_and,if_false]
  | get ipAddr vlanId => rfl
  | useCnt => rfl

/-- The map after the calls holds the latest adds. -/
theorem lookup_run_onMap (m : AddrMap) (calls : List Call) (k : Key) :
    (run (next (onMap ismulticast)) m calls).lookup k =
      lastAdd k (m.lookup k) (log (onMap ismulticast) m calls) := by
  induction calls generalizing m with
  | nil => rfl
  | cons c calls ih =>
    rw [run_cons,ih,lookup_next_onMap]
    rfl

/-- Every sequence of calls on an initialised table is answered as a
finite map of bounded size answers it. -/
theorem onTable_refines_map (ismulticast : U32 → Bool) (t : Table) (calls : List Call) :
    RefinesMap ismulticast (ArpTable.init true t).2 calls := by
  have hagree : Agree (onTable ismulticast) (onMap ismulticast) Represents
      ((ArpTable.init true t).2,∅) calls :=
    agree_of_step (fun s c h => represents_both h c) (represents_of_maps (maps_init t)) calls
  refine ⟨hagree,fun ipAddr vlanId => ?_⟩
  have hlog := hagree.log_eq
  rw [hagree.final.maps.getHwAddr,lookup_run_onMap,Finmap.lookup_empty]
  exact congrArg (lastAdd (ipAddr,vlanId) none) hlog.symm

end EthernetFirmware.ArpMap
