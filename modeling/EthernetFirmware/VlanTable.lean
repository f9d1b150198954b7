import Mathlib.Data.List.TakeWhile
import EthernetFirmware.SlotTables
import EthernetFirmware.VepaTable

/-!
# VLAN table

The table of VLANs the server keeps: static VLANs saved from the
configuration, dynamic VLANs created by the first join of an unknown
identity, and the masks of hardware and virtual ports of each. The model
follows initialisation, join, leave and deinitialisation, together with
the ALE entries their ioctls write. Status codes of the ioctls are inputs;
a failing ioctl leaves the ALE alone.

The look-up scans the first `numVlans` entries, whether free or not, and
keeps the last match. A join that finds no match takes the first free
entry of the whole table. Nothing ever marks an entry free again but
initialisation, which leaves `numVlans` as it is.
-/

namespace EthernetFirmware.VlanTable

open Function BitMasks SlotTables RemoteConfig

/-- `ETHFWVLAN_VLANS_MAX`. -/
def vlansMax : ℕ := 32

/-- `EthFwVlan_Vlan`. -/
structure VlanEntry where
  /-- VLAN identity. -/
  vlanId : U16
  /-- ALE member mask of hardware ports. -/
  memberMask : U32
  /-- Ports that registered multicast packets are flooded to. -/
  regMcastFloodMask : U32
  /-- Ports that unregistered multicast packets are flooded to. -/
  unregMcastFloodMask : U32
  /-- Ports whose VLAN tag is removed on egress. -/
  untagMask : U32
  /-- Virtual ports allowed in the VLAN. -/
  virtMemberMask : U32
  /-- Virtual ports that have joined the VLAN. -/
  virtActiveMask : U32
  /-- The entry is free. -/
  isFree : Bool
  /-- The entry is statically allocated. -/
  isStatic : Bool

/-- `CpswAle_VlanEntryInfo`, without the VLAN identity it is stored under. -/
structure AleVlan where
  /-- Member ports. -/
  vlanMemberList : U32
  /-- Registered multicast flood mask. -/
  regMcastFloodMask : U32
  /-- Unregistered multicast flood mask. -/
  unregMcastFloodMask : U32
  /-- Untagged egress mask. -/
  forceUntaggedEgressMask : U32
  /-- No-learn mask. -/
  noLearnMask : U32
  /-- VLAN identities are checked on ingress. -/
  vidIngressCheck : Bool
  /-- IP next header limit. -/
  limitIPNxtHdr : Bool
  /-- IP fragments are dropped. -/
  disallowIPFrag : Bool

/-- `EthFwVlan_Obj` with the hardware and the VEPA table it acts on. -/
structure VlanObj where
  /-- VLAN configuration. -/
  vlan : Fin vlansMax → VlanEntry
  /-- Number of valid VLAN configuration entries. -/
  numVlans : ℕ
  /-- Default port mask of all ports in switch mode. -/
  defaultPortMask : U32
  /-- Default virtual port mask of all ports in switch mode. -/
  defaultVirtPortMask : U32
  /-- Dynamic VLANs forward to all switch ports. -/
  dVlanSwtFwdEn : Bool
  /-- The mutex exists. -/
  hMutex : Bool
  /-- VLAN entries of the ALE. -/
  ale : U16 → Option AleVlan
  /-- The VEPA table, in builds with VEPA support. -/
  vepa : Option VepaTable.Table

/-- `EthFwVlan_VlanCfg`. -/
structure VlanCfg where
  /-- VLAN identity. -/
  vlanId : U16
  /-- Hardware member ports. -/
  memberMask : U32
  /-- Virtual member ports. -/
  virtMemberMask : U32
  /-- Registered multicast flood mask. -/
  regMcastFloodMask : U32
  /-- Unregistered multicast flood mask. -/
  unregMcastFloodMask : U32
  /-- Untag mask. -/
  untagMask : U32

/-- `EthFwVlan_Cfg`; the length of the list is `numStaticVlans`. -/
structure Cfg where
  /-- Static VLANs. -/
  vlanCfg : List VlanCfg
  /-- Default VLAN identity of switch ports. -/
  dfltVlanIdSwitchPorts : U32
  /-- Default VLAN identity of MAC-only ports. -/
  dfltVlanIdMacOnlyPorts : U32
  /-- Ports in switch mode. -/
  switchPortMask : U32
  /-- Ports in MAC-only mode. -/
  macOnlyPortMask : U32
  /-- Default port mask. -/
  defaultPortMask : U32
  /-- Default virtual port mask. -/
  defaultVirtPortMask : U32
  /-- Dynamic VLANs forward to all switch ports. -/
  dVlanSwtFwdEn : Bool

/-- `CPSW_ALE_HOST_PORT_MASK`: the host port is ALE port 0. -/
def hostPortMask : U32 := bit 0

/-- `CPSW_ALE_MACPORT_TO_PORTMASK`: MAC ports follow the host port. -/
def macPortToPortMask (macPort : U32) : U32 := bit (macPort.toNat + 1)

/-- Mask without the host port. -/
def withoutHost (m : U32) : U32 := m &&& ~~~hostPortMask

/-- `EthFwVlan_popcount`. -/
def popcount (v : U32) : ℕ :=
  if h : v = 0#32 then 0 else popcount (v &&& (v - 1#32)) + 1
termination_by v.toNat
decreasing_by
  have hv : v.toNat ≠ 0 := by
    intro hz
    exact h (BitVec.eq_of_toNat_eq (by simpa using hz))
  have hlt := v.isLt
  have hle : (v &&& (v - 1#32)).toNat ≤ (v - 1#32).toNat := by
    rw [BitVec.toNat_and]
    exact Nat.and_le_right
  have hpred : (v - 1#32).toNat = v.toNat - 1 := by
    rw [BitVec.toNat_sub]
    simp only [BitVec.toNat_ofNat]
    omega
  omega

/-- Rewrite one entry. -/
def VlanObj.modify (o : VlanObj) (i : Fin vlansMax) (f : VlanEntry → VlanEntry) : VlanObj :=
  { o with vlan := update o.vlan i (f (o.vlan i)) }

/-- `EthFwVlan_setupVlan`, with the status of the ioctl. -/
def setupVlan (o : VlanObj) (ioctl : Status) (vlanId : U16)
    (memberMask regMcastFloodMask unregMcastFloodMask untagMask : U32) : Status × VlanObj :=
  let vlanInArgs : AleVlan :=
    { vlanMemberList := memberMask
      regMcastFloodMask := regMcastFloodMask
      unregMcastFloodMask := unregMcastFloodMask
      forceUntaggedEgressMask := untagMask
      noLearnMask := 0#32
      vidIngressCheck := true
      limitIPNxtHdr := false
      disallowIPFrag := false }
  if ioctl = sok then (sok,{ o with ale := update o.ale vlanId (some vlanInArgs) })
  else (ioctl,o)

/-- `EthFwVlan_deleteVlan`. -/
def deleteVlan (o : VlanObj) (ioctl : Status) (vlanId : U16) : VlanObj :=
  if ioctl = sok then { o with ale := update o.ale vlanId none } else o

/-- The set-up of a VLAN that includes the host port. -/
def setupWithHost (o : VlanObj) (ioctl : Status) (e : VlanEntry) : Status × VlanObj :=
  setupVlan o ioctl e.vlanId e.memberMask e.regMcastFloodMask e.unregMcastFloodMask e.untagMask

/-- The set-up of a VLAN that excludes the host port. -/
def setupWithoutHost (o : VlanObj) (ioctl : Status) (e : VlanEntry) : Status × VlanObj :=
  setupVlan o ioctl e.vlanId (withoutHost e.memberMask) (withoutHost e.regMcastFloodMask)
    (withoutHost e.unregMcastFloodMask) (withoutHost e.untagMask)

/-- `EthFwVlan_getVlan`: the last of the first `numVlans` entries with the
identity. Entries beyond the table are not part of the model. -/
def getVlan (o : VlanObj) (vlanId : U16) : Option (Fin vlansMax) :=
  lastSlot (fun e => decide (e.1.val < o.numVlans) && decide (e.2.vlanId = vlanId))
    fun i => (i,o.vlan i)

/-- First free entry of the table. -/
def freeVlan (o : VlanObj) : Option (Fin vlansMax) := firstSlot VlanEntry.isFree o.vlan

/-- `EthFwVlan_isInVlan`. -/
def isInVlan (o : VlanObj) (virtPort : PortId) (vlanId : U16) : Bool :=
  match getVlan o vlanId with
  | some i => isSet (o.vlan i).virtActiveMask virtPort.val.toNat
  | none => false

/-- Checks of `EthFwVlan_getCfg` on one static VLAN. -/
def checkVlanCfg (cfg : Cfg) (c : VlanCfg) : Status :=
  if c.vlanId.setWidth 32 = cfg.dfltVlanIdSwitchPorts ∨
      c.vlanId.setWidth 32 = cfg.dfltVlanIdMacOnlyPorts then einvalidParams
  else if c.memberMask &&& cfg.switchPortMask <<< 1 ≠ 0#32 ∧
      c.memberMask &&& cfg.macOnlyPortMask <<< 1 ≠ 0#32 then einvalidParams
  else if 1 < popcount (c.memberMask &&& cfg.macOnlyPortMask <<< 1) then einvalidParams
  else sok

/-- The entry saved for a static VLAN: masks are capped to the members. -/
def staticEntry (c : VlanCfg) : VlanEntry where
  vlanId := c.vlanId
  memberMask := c.memberMask
  regMcastFloodMask := c.regMcastFloodMask &&& c.memberMask
  unregMcastFloodMask := c.unregMcastFloodMask &&& c.memberMask
  untagMask := c.untagMask &&& c.memberMask
  virtMemberMask := c.virtMemberMask
  virtActiveMask := 0#32
  isFree := false
  isStatic := true

/-- Save a static VLAN at its index. -/
def saveVlan (o : VlanObj) (i : ℕ) (c : VlanCfg) : VlanObj :=
  if h : i < vlansMax then
    { o with vlan := update o.vlan ⟨i,h⟩ (staticEntry c), numVlans := o.numVlans + 1 }
  else o

/-- The loop of `EthFwVlan_getCfg`: it stops at the first VLAN that fails
a check. -/
def saveVlans (cfg : Cfg) : ℕ → List VlanCfg → VlanObj → Status × VlanObj
  | _, [], o => (sok,o)
  | i, c :: cs, o =>
    if checkVlanCfg cfg c = sok then saveVlans cfg (i + 1) cs (saveVlan o i c)
    else (checkVlanCfg cfg c,o)

/-- `EthFwVlan_getCfg`. -/
def getCfg (cfg : Cfg) (o : VlanObj) : Status × VlanObj :=
  if vlansMax < cfg.vlanCfg.length then (einvalidParams,o)
  else saveVlans cfg 0 cfg.vlanCfg o

/-- Mark every entry free and dynamic. -/
def freeAll (o : VlanObj) : VlanObj :=
  { o with vlan := fun i => { o.vlan i with isFree := true, isStatic := false } }

/-- One round of the loop that adds static VLANs to the ALE; the status of
the round before it is lost. -/
def setupStatic (ioctl : ℕ → Status) (r : Status × VlanObj) (i : ℕ) : Status × VlanObj :=
  if h : i < vlansMax then
    if (r.2.vlan ⟨i,h⟩).isFree then r
    else setupWithoutHost r.2 (ioctl i) (r.2.vlan ⟨i,h⟩)
  else r

/-- `EthFwVlan_init`, with the mutex and the set-up status of each entry. -/
def init (o : VlanObj) (cfg : Cfg) (mutex : Bool) (ioctl : ℕ → Status) : Status × VlanObj :=
  let o := { o with defaultPortMask := cfg.defaultPortMask
                    defaultVirtPortMask := cfg.defaultVirtPortMask
                    dVlanSwtFwdEn := cfg.dVlanSwtFwdEn
                    hMutex := mutex }
  if mutex then
    let r := getCfg cfg (freeAll o)
    if r.1 = sok then (List.range r.2.numVlans).foldl (setupStatic ioctl) (sok,r.2) else r
  else (efail,o)

/-- `EthFwVlan_deinit`: the ALE entries and the mutex go, the table stays. -/
def deinit (o : VlanObj) (ioctl : ℕ → Status) : VlanObj :=
  let o := (List.range o.numVlans).foldl
    (fun o i => if h : i < vlansMax then deleteVlan o (ioctl i) (o.vlan ⟨i,h⟩).vlanId else o) o
  { o with hMutex := false }

/-- The broadcast entry of a VLAN is added for a port that joined. -/
def addBcast (o : VlanObj) (vlanId : U16) (virtPort : PortId) : Status × VlanObj :=
  match o.vepa with
  | some t =>
    let r := VepaTable.addAddr t MacAddr.bcast vlanId virtPort
    (r.1,{ o with vepa := some r.2 })
  | none => (sok,o)

/-- The broadcast entry of a VLAN is removed for a port that left. -/
def delBcast (o : VlanObj) (vlanId : U16) (virtPort : PortId) : Status × VlanObj :=
  match o.vepa with
  | some t =>
    let r := VepaTable.delAddr t MacAddr.bcast vlanId virtPort
    (r.1,{ o with vepa := some r.2 })
  | none => (sok,o)

/-- Entry with a port marked active. -/
def VlanEntry.activate (p : PortId) (e : VlanEntry) : VlanEntry :=
  { e with virtActiveMask := setBit e.virtActiveMask p.val.toNat }

/-- Entry with a port marked inactive. -/
def VlanEntry.retire (p : PortId) (e : VlanEntry) : VlanEntry :=
  { e with virtActiveMask := clearBit e.virtActiveMask p.val.toNat }

/-- The part both kinds of join share: set up the VLAN of an entry with the
host port and mark the port active. -/
def joinAt (o : VlanObj) (i : Fin vlansMax) (virtPort : PortId) (vlanId : U16)
    (ioctl : Status) : Status × VlanObj :=
  let r := setupWithHost o ioctl (o.vlan i)
  if r.1 = sok then
    addBcast (r.2.modify i (VlanEntry.activate virtPort)) vlanId virtPort
  else r

/-- The entry a join writes for a VLAN that is not in the table. -/
def dynamicEntry (o : VlanObj) (virtPort : PortId) (vlanId : U16) (old : VlanEntry) :
    VlanEntry :=
  if isMacPort virtPort.val then
    let memberMask := hostPortMask ||| macPortToPortMask (getMacPort virtPort.val)
    -- The port number itself is stored, not the mask with its bit.
    { old with vlanId := vlanId, isFree := false, memberMask := memberMask
               regMcastFloodMask := memberMask, unregMcastFloodMask := memberMask
               virtMemberMask := virtPort.val, untagMask := 0#32, virtActiveMask := 0#32 }
  else if o.dVlanSwtFwdEn then
    { old with vlanId := vlanId, isFree := false, memberMask := o.defaultPortMask
               regMcastFloodMask := o.defaultPortMask
               unregMcastFloodMask := o.defaultPortMask
               virtMemberMask := o.defaultVirtPortMask, untagMask := 0#32
               virtActiveMask := 0#32 }
  else
    { old with vlanId := vlanId, isFree := false, memberMask := hostPortMask
               regMcastFloodMask := hostPortMask, unregMcastFloodMask := hostPortMask
               virtMemberMask := 0#32, untagMask := 0#32, virtActiveMask := 0#32 }

/-- Fill a free entry for a new dynamic VLAN. -/
def createVlan (o : VlanObj) (i : Fin vlansMax) (virtPort : PortId) (vlanId : U16) : VlanObj :=
  { o.modify i (dynamicEntry o virtPort vlanId) with numVlans := o.numVlans + 1 }

/-- `EthFwVlan_join`, with the status of the set-up ioctl. -/
def join (o : VlanObj) (virtPort : PortId) (vlanId : U16) (macAddr : MacAddr)
    (ioctl : Status) : Status × VlanObj :=
  if macAddr.isMcast then (einvalidParams,o)
  else
    match getVlan o vlanId with
    | some i =>
      if isSet (o.vlan i).virtMemberMask virtPort.val.toNat then
        joinAt o i virtPort vlanId ioctl
      else (eperm,o)
    | none =>
      match freeVlan o with
      | some i => joinAt (createVlan o i virtPort vlanId) i virtPort vlanId ioctl
      | none => (ealloc,o)

/-- The ioctls of a leave that takes the last port out of a VLAN: the host
port is excluded and a dynamic VLAN deleted, whose status is lost. -/
def vacate (o : VlanObj) (e : VlanEntry) (setup remove : Status) : Status × VlanObj :=
  let r := setupWithoutHost o setup e
  if e.isStatic then r else (r.1,deleteVlan r.2 remove e.vlanId)

/-- The part of a leave after its checks. -/
def leaveAt (o : VlanObj) (i : Fin vlansMax) (virtPort : PortId) (vlanId : U16)
    (setup remove : Status) : Status × VlanObj :=
  let o := o.modify i (VlanEntry.retire virtPort)
  let r := if (o.vlan i).virtActiveMask = 0#32 then vacate o (o.vlan i) setup remove else (sok,o)
  if r.1 = sok then delBcast r.2 vlanId virtPort else r

/-- `EthFwVlan_leave`, with the status of the set-up and delete ioctls. -/
def leave (o : VlanObj) (virtPort : PortId) (vlanId : U16) (macAddr : MacAddr)
    (setup remove : Status) : Status × VlanObj :=
  match getVlan o vlanId with
  | none => (einvalidParams,o)
  | some i =>
    if macAddr.isMcast then (einvalidParams,o)
    else if ¬ isSet (o.vlan i).virtMemberMask virtPort.val.toNat then (eperm,o)
    else if ¬ isSet (o.vlan i).virtActiveMask virtPort.val.toNat then (einvalidParams,o)
    else leaveAt o i virtPort vlanId setup remove

/-- The host port belongs to the ALE entry of the VLAN. -/
def HostMember (ale : U16 → Option AleVlan) (vlanId : U16) : Prop :=
  ∃ a, ale vlanId = some a ∧ isSet a.vlanMemberList 0 = true

variable {o : VlanObj} {i j : Fin vlansMax} {p q : PortId} {v w : U16} {mac : MacAddr}
  {st setup remove : Status}

theorem getVlan_eq_some_iff :
    getVlan o v = some i ↔ (i.val < o.numVlans ∧ (o.vlan i).vlanId = v) ∧
      ∀ j > i, ¬ (j.val < o.numVlans ∧ (o.vlan j).vlanId = v) := by
  unfold getVlan
  rw [lastSlot_eq_some_iff]
  simp only [Bool.and_eq_true,decide_eq_true_eq,Bool.and_eq_false_iff,decide_eq_false_iff_not,
    not_and_or]

theorem getVlan_eq_none_iff :
    getVlan o v = none ↔ ∀ i, i.val < o.numVlans → (o.vlan i).vlanId ≠ v := by
  unfold getVlan
  rw [lastSlot_eq_none_iff]
  refine forall_congr' fun i => ?_
  by_cases h : i.val < o.numVlans <;> simp [h]

/-- The only entry with the identity is the one found. -/
theorem getVlan_of_unique (hi : i.val < o.numVlans) (hv : (o.vlan i).vlanId = v)
    (hu : ∀ j, j.val < o.numVlans → (o.vlan j).vlanId = v → j = i) : getVlan o v = some i := by
  rw [getVlan_eq_some_iff]
  refine ⟨⟨hi,hv⟩,?_⟩
  rintro j hj ⟨hn,hjv⟩
  exact absurd (hu j hn hjv) (Fin.ne_of_gt hj)

/-- The look-up depends on the count and the identities alone. -/
theorem getVlan_congr {o' : VlanObj} (hn : o'.numVlans = o.numVlans)
    (hv : ∀ i, (o'.vlan i).vlanId = (o.vlan i).vlanId) : getVlan o' v = getVlan o v := by
  unfold getVlan lastSlot
  simp only [hn,hv]

theorem freeVlan_eq_some_iff :
    freeVlan o = some i ↔ (o.vlan i).isFree = true ∧ ∀ j < i, (o.vlan j).isFree = false :=
  firstSlot_eq_some_iff

theorem freeVlan_eq_none_iff : freeVlan o = none ↔ ∀ i, (o.vlan i).isFree = false :=
  firstSlot_eq_none_iff

@[simp] theorem modify_self (f : VlanEntry → VlanEntry) :
    (o.modify i f).vlan i = f (o.vlan i) := update_self ..

theorem modify_of_ne (f : VlanEntry → VlanEntry) (h : j ≠ i) :
    (o.modify i f).vlan j = o.vlan j := update_of_ne h ..

/-- A rewrite that keeps a field keeps it in every entry. -/
theorem modify_field {β : Type*} (g : VlanEntry → β) (f : VlanEntry → VlanEntry)
    (h : g (f (o.vlan i)) = g (o.vlan i)) (j : Fin vlansMax) :
    g ((o.modify i f).vlan j) = g (o.vlan j) := by
  by_cases hj : j = i
  · subst hj
    rw [modify_self,h]
  · rw [modify_of_ne f hj]

theorem setupVlan_failed {m r u t : U32} (h : st ≠ sok) : setupVlan o st v m r u t = (st,o) := by
  unfold setupVlan
  rw [if_neg h]

@[simp] theorem setupVlan_status {m r u t : U32} : (setupVlan o st v m r u t).1 = st := by
  unfold setupVlan
  split
  · next h => exact h.symm
  · rfl

/-- Setting up a VLAN writes the ALE alone. -/
theorem setupVlan_state {m r u t : U32} :
    (setupVlan o st v m r u t).2 = { o with ale := (setupVlan o st v m r u t).2.ale } := by
  unfold setupVlan
  split <;> rfl

/-- A VLAN set up has the host port exactly when the mask names it. -/
theorem hostMember_setupVlan {m r u t : U32} :
    HostMember (setupVlan o sok v m r u t).2.ale w ↔
      if w = v then isSet m 0 = true else HostMember o.ale w := by
  unfold setupVlan HostMember
  rw [if_pos rfl]
  by_cases h : w = v
  · subst h
    simp
  · simp [h]

/-- Deleting a VLAN writes the ALE alone. -/
theorem deleteVlan_state : deleteVlan o st v = { o with ale := (deleteVlan o st v).ale } := by
  unfold deleteVlan
  split <;> rfl

theorem hostMember_deleteVlan :
    HostMember (deleteVlan o st v).ale w ↔
      if w = v ∧ st = sok then False else HostMember o.ale w := by
  unfold deleteVlan HostMember
  by_cases h : st = sok
  · rw [if_pos h]
    by_cases hw : w = v
    · subst hw
      simp [h]
    · simp [h,hw]
  · simp [h]

@[simp] theorem addBcast_status : (addBcast o v p).1 = sok := by
  unfold addBcast
  split
  · exact VepaTable.addAddr_status
  · rfl

theorem addBcast_state : (addBcast o v p).2 =
    { o with vepa := o.vepa.map fun t => (VepaTable.addAddr t MacAddr.bcast v p).2 } := by
  obtain ⟨vlan,numVlans,portMask,virtPortMask,fwdEn,mutex,ale,vepa⟩ := o
  cases vepa <;> rfl

theorem delBcast_state : (delBcast o v p).2 =
    { o with vepa := o.vepa.map fun t => (VepaTable.delAddr t MacAddr.bcast v p).2 } := by
  obtain ⟨vlan,numVlans,portMask,virtPortMask,fwdEn,mutex,ale,vepa⟩ := o
  cases vepa <;> rfl

/-- The broadcast entry of the VLAN can be removed: in VEPA builds it is in
the table. -/
def BcastKnown (o : VlanObj) (vlanId : U16) : Prop :=
  ∀ t, o.vepa = some t → VepaTable.Known t MacAddr.bcast vlanId

theorem delBcast_ok_iff : (delBcast o v p).1 = sok ↔ BcastKnown o v := by
  unfold delBcast BcastKnown
  cases h : o.vepa with
  | some t => simp [VepaTable.delAddr_ok_iff]
  | none => simp

theorem joinAt_failed (h : st ≠ sok) : joinAt o i p v st = (st,o) := by
  unfold joinAt setupWithHost
  rw [setupVlan_failed h]
  exact if_neg h

@[simp] theorem joinAt_status : (joinAt o i p v st).1 = st := by
  by_cases h : st = sok
  · subst h
    unfold joinAt setupWithHost
    rw [if_pos setupVlan_status]
    exact addBcast_status
  · rw [joinAt_failed h]

/-- A set-up that succeeds marks the port active in the entry. -/
theorem joinAt_vlan : (joinAt o i p v sok).2.vlan =
    update o.vlan i ((o.vlan i).activate p) := by
  unfold joinAt setupWithHost
  rw [if_pos setupVlan_status,addBcast_state,setupVlan_state]
  rfl

theorem joinAt_ale : (joinAt o i p v sok).2.ale =
    (setupWithHost o sok (o.vlan i)).2.ale := by
  unfold joinAt setupWithHost
  rw [if_pos setupVlan_status,addBcast_state]
  rfl

theorem joinAt_vepa : (joinAt o i p v sok).2.vepa =
    o.vepa.map fun t => (VepaTable.addAddr t MacAddr.bcast v p).2 := by
  unfold joinAt setupWithHost
  rw [if_pos setupVlan_status,addBcast_state,setupVlan_state]
  rfl

/-- The count and the defaults of the table. -/
structure SameSettings (o o' : VlanObj) : Prop where
  /-- The count is kept. -/
  numVlans : o'.numVlans = o.numVlans
  /-- The default port mask is kept. -/
  defaultPortMask : o'.defaultPortMask = o.defaultPortMask
  /-- The default virtual port mask is kept. -/
  defaultVirtPortMask : o'.defaultVirtPortMask = o.defaultVirtPortMask
  /-- The forwarding of dynamic VLANs is kept. -/
  dVlanSwtFwdEn : o'.dVlanSwtFwdEn = o.dVlanSwtFwdEn

theorem SameSettings.refl (o : VlanObj) : SameSettings o o := ⟨rfl,rfl,rfl,rfl⟩

theorem joinAt_settings : SameSettings o (joinAt o i p v st).2 := by
  by_cases h : st = sok
  · subst h
    unfold joinAt setupWithHost
    rw [if_pos setupVlan_status,addBcast_state,setupVlan_state]
    exact ⟨rfl,rfl,rfl,rfl⟩
  · rw [joinAt_failed h]
    exact SameSettings.refl o

@[simp] theorem vacate_status {e : VlanEntry} : (vacate o e setup remove).1 = setup := by
  unfold vacate setupWithoutHost
  split <;> exact setupVlan_status

theorem vacate_state {e : VlanEntry} :
    (vacate o e setup remove).2 = { o with ale := (vacate o e setup remove).2.ale } := by
  unfold vacate setupWithoutHost
  split
  · exact setupVlan_state
  · dsimp only
    rw [deleteVlan_state,setupVlan_state]

/-- The host port stays in the ALE entry exactly when neither the set-up
nor, for a dynamic VLAN, the removal succeeds. -/
theorem hostMember_vacate {e : VlanEntry} :
    HostMember (vacate o e setup remove).2.ale w ↔
      if w = e.vlanId ∧ (setup = sok ∨ (e.isStatic = false ∧ remove = sok)) then False
      else HostMember o.ale w := by
  have hhost : ∀ m : U32, isSet (withoutHost m) 0 = false := by
    intro m
    exact isSet_clearBit_self m 0
  have hsetup : HostMember (setupWithoutHost o setup e).2.ale w ↔
      if w = e.vlanId ∧ setup = sok then False else HostMember o.ale w := by
    unfold setupWithoutHost
    by_cases hs : setup = sok
    · subst hs
      rw [hostMember_setupVlan]
      by_cases hw : w = e.vlanId <;> simp [hw,hhost]
    · rw [setupVlan_failed hs]
      simp [hs]
  unfold vacate
  by_cases hst : e.isStatic = true
  · rw [if_pos hst,hsetup]
    simp [hst]
  · rw [if_neg hst,hostMember_deleteVlan,hsetup]
    have hf : e.isStatic = false := by simpa using hst
    by_cases hw : w = e.vlanId <;> by_cases hs : setup = sok <;> by_cases hr : remove = sok <;>
      simp [hw,hs,hr,hf]

/-- What a leave leaves in the state but for the VEPA table. -/
theorem leaveAt_state (o : VlanObj) (i : Fin vlansMax) (p : PortId) (v : U16)
    (setup remove : Status) : ∃ vepa, (leaveAt o i p v setup remove).2 =
    { o.modify i (VlanEntry.retire p) with
      ale := if ((o.vlan i).retire p).virtActiveMask = 0#32 then
          (vacate (o.modify i (VlanEntry.retire p)) ((o.vlan i).retire p) setup remove).2.ale
        else o.ale
      vepa := vepa } := by
  unfold leaveAt
  dsimp only
  rw [modify_self]
  by_cases hz : ((o.vlan i).retire p).virtActiveMask = 0#32
  · rw [if_pos hz,if_pos hz]
    by_cases hs : setup = sok
    · rw [if_pos (vacate_status.trans hs),delBcast_state,vacate_state]
      exact ⟨_,rfl⟩
    · rw [if_neg (by rw [vacate_status]; exact hs),vacate_state]
      exact ⟨_,rfl⟩
  · rw [if_neg hz,if_neg hz,if_pos rfl,delBcast_state]
    exact ⟨_,rfl⟩

theorem leaveAt_vlan : (leaveAt o i p v setup remove).2.vlan =
    update o.vlan i ((o.vlan i).retire p) := by
  obtain ⟨vepa,h⟩ := leaveAt_state o i p v setup remove
  rw [h]
  rfl

theorem leaveAt_settings : SameSettings o (leaveAt o i p v setup remove).2 := by
  obtain ⟨vepa,h⟩ := leaveAt_state o i p v setup remove
  rw [h]
  exact ⟨rfl,rfl,rfl,rfl⟩

/-- When a leave lets the host port stay in the ALE entry. -/
theorem hostMember_leaveAt : HostMember (leaveAt o i p v setup remove).2.ale w ↔
    if w = (o.vlan i).vlanId ∧ ((o.vlan i).retire p).virtActiveMask = 0#32 ∧
        (setup = sok ∨ ((o.vlan i).isStatic = false ∧ remove = sok)) then False
    else HostMember o.ale w := by
  obtain ⟨vepa,h⟩ := leaveAt_state o i p v setup remove
  rw [h]
  dsimp only
  by_cases hz : ((o.vlan i).retire p).virtActiveMask = 0#32
  · rw [if_pos hz,hostMember_vacate]
    simp only [hz,true_and]
    rfl
  · rw [if_neg hz]
    simp [hz]

/-- With its ioctl succeeding, a leave fails only for a broadcast entry that
is not there. -/
theorem leaveAt_ok_iff : (leaveAt o i p v sok remove).1 = sok ↔ BcastKnown o v := by
  unfold leaveAt
  dsimp only
  rw [modify_self]
  by_cases hz : ((o.vlan i).retire p).virtActiveMask = 0#32
  · rw [if_pos hz,if_pos vacate_status,delBcast_ok_iff,vacate_state]
    rfl
  · rw [if_neg hz,if_pos rfl,delBcast_ok_iff]
    rfl

/-- Everything a join can do. -/
inductive JoinMove (o : VlanObj) (p : PortId) (v : U16) (mac : MacAddr) (st : Status) :
    Status × VlanObj → Prop
  /-- The client's address is no unicast address. -/
  | mcastAddr (h : mac.isMcast = true) : JoinMove o p v mac st (einvalidParams,o)
  /-- The port is not allowed in the VLAN. -/
  | notAllowed (i : Fin vlansMax) (hmac : mac.isMcast = false) (hget : getVlan o v = some i)
      (hmember : isSet (o.vlan i).virtMemberMask p.val.toNat = false) :
      JoinMove o p v mac st (eperm,o)
  /-- The table has no free entry for a new VLAN. -/
  | noRoom (hmac : mac.isMcast = false) (hget : getVlan o v = none)
      (hfree : freeVlan o = none) : JoinMove o p v mac st (ealloc,o)
  /-- The VLAN is in the table. -/
  | known (i : Fin vlansMax) (hmac : mac.isMcast = false) (hget : getVlan o v = some i)
      (hmember : isSet (o.vlan i).virtMemberMask p.val.toNat = true) :
      JoinMove o p v mac st (joinAt o i p v st)
  /-- The VLAN is created. -/
  | created (i : Fin vlansMax) (hmac : mac.isMcast = false) (hget : getVlan o v = none)
      (hfree : freeVlan o = some i) :
      JoinMove o p v mac st (joinAt (createVlan o i p v) i p v st)

theorem join_cases (o : VlanObj) (p : PortId) (v : U16) (mac : MacAddr) (st : Status) :
    JoinMove o p v mac st (join o p v mac st) := by
  unfold join
  by_cases hmac : mac.isMcast = true
  · rw [if_pos hmac]
    exact .mcastAddr hmac
  · rw [if_neg hmac]
    have hmac' : mac.isMcast = false := by simpa using hmac
    cases hget : getVlan o v with
    | some i =>
      dsimp only
      by_cases hm : isSet (o.vlan i).virtMemberMask p.val.toNat = true
      · rw [if_pos hm]
        exact .known i hmac' hget hm
      · rw [if_neg hm]
        exact .notAllowed i hmac' hget (by simpa using hm)
    | none =>
      dsimp only
      cases hfree : freeVlan o with
      | some i => exact .created i hmac' hget hfree
      | none => exact .noRoom hmac' hget hfree

/-- The checks of a leave all pass for the entry. -/
structure Leaves (o : VlanObj) (p : PortId) (v : U16) (mac : MacAddr) (i : Fin vlansMax) :
    Prop where
  /-- The client's address is a unicast address. -/
  unicast : mac.isMcast = false
  /-- The VLAN is in the table. -/
  found : getVlan o v = some i
  /-- The port is allowed in it. -/
  allowed : isSet (o.vlan i).virtMemberMask p.val.toNat = true
  /-- The port has joined it. -/
  active : isSet (o.vlan i).virtActiveMask p.val.toNat = true

/-- A leave that passes its checks. -/
theorem leave_of_leaves (h : Leaves o p v mac i) :
    leave o p v mac setup remove = leaveAt o i p v setup remove := by
  obtain ⟨hmac,hget,hmember,hactive⟩ := h
  unfold leave
  rw [hget]
  dsimp only
  rw [if_neg (by simp [hmac]),if_neg (by simp [hmember]),if_neg (by simp [hactive])]

/-- A leave that fails a check changes nothing and reports an error. -/
theorem leave_refused (h : ∀ i, ¬ Leaves o p v mac i) :
    (leave o p v mac setup remove).1 ≠ sok ∧ (leave o p v mac setup remove).2 = o := by
  unfold leave
  cases hget : getVlan o v with
  | none => exact ⟨einvalidParams_ne_sok,rfl⟩
  | some i =>
    dsimp only
    split
    · exact ⟨einvalidParams_ne_sok,rfl⟩
    · next hmac =>
      split
      · exact ⟨eperm_ne_sok,rfl⟩
      · next hmember =>
        split
        · exact ⟨einvalidParams_ne_sok,rfl⟩
        · next hactive =>
          exact absurd ⟨by simpa using hmac,hget,by simpa using hmember,by simpa using hactive⟩
            (h i)

/-- The port has its bit in the virtual members of a new dynamic VLAN exactly
when it is a switch port, dynamic VLANs forward, and the default mask names
it. -/
def JoinsForwarding (o : VlanObj) (p : PortId) : Prop :=
  o.dVlanSwtFwdEn = true ∧ isMacPort p.val = false ∧
    isSet o.defaultVirtPortMask p.val.toNat = true

/-- A number is too small to have the bit of its own value. -/
theorem isSet_self_eq_false (x : U32) : isSet x x.toNat = false := by
  rw [isSet_eq_getLsbD]
  exact Nat.testBit_lt_two_pow Nat.lt_two_pow_self

variable {old : VlanEntry}

@[simp] theorem dynamicEntry_vlanId : (dynamicEntry o p v old).vlanId = v := by
  unfold dynamicEntry
  split
  · rfl
  · split <;> rfl

@[simp] theorem dynamicEntry_isFree : (dynamicEntry o p v old).isFree = false := by
  unfold dynamicEntry
  split
  · rfl
  · split <;> rfl

@[simp] theorem dynamicEntry_isStatic : (dynamicEntry o p v old).isStatic = old.isStatic := by
  unfold dynamicEntry
  split
  · rfl
  · split <;> rfl

@[simp] theorem dynamicEntry_virtActiveMask :
    (dynamicEntry o p v old).virtActiveMask = 0#32 := by
  unfold dynamicEntry
  split
  · rfl
  · split <;> rfl

theorem dynamicEntry_allowed_iff :
    isSet (dynamicEntry o p v old).virtMemberMask p.val.toNat = true ↔ JoinsForwarding o p := by
  unfold dynamicEntry JoinsForwarding
  by_cases hm : isMacPort p.val = true
  · simp [hm,isSet_self_eq_false]
  · by_cases hf : o.dVlanSwtFwdEn = true
    · simp [hm,hf]
    · simp [hm,hf]

/-- A new dynamic VLAN has the host port when the default mask does. -/
theorem dynamicEntry_host (h : isSet o.defaultPortMask 0 = true) :
    isSet (dynamicEntry o p v old).memberMask 0 = true := by
  have hhost : isSet hostPortMask 0 = true := isSet_bit_self (by decide)
  unfold dynamicEntry
  split
  · dsimp only
    rw [isSet_or,hhost,Bool.true_or]
  · split
    · exact h
    · exact hhost

@[simp] theorem createVlan_self :
    (createVlan o i p v).vlan i = dynamicEntry o p v (o.vlan i) := modify_self _

theorem createVlan_of_ne (h : j ≠ i) : (createVlan o i p v).vlan j = o.vlan j :=
  modify_of_ne _ h

/-- The static VLANs initialisation saves: those before the first one that
fails a check, and none when they are too many. -/
def accepted (cfg : Cfg) : List VlanCfg :=
  if vlansMax < cfg.vlanCfg.length then []
  else cfg.vlanCfg.takeWhile fun c => decide (checkVlanCfg cfg c = sok)

variable {cfg : Cfg}

theorem accepted_length_le (cfg : Cfg) : (accepted cfg).length ≤ vlansMax := by
  unfold accepted
  split
  · exact Nat.zero_le _
  · have := (List.takeWhile_prefix (l := cfg.vlanCfg)
      fun c => decide (checkVlanCfg cfg c = sok)).length_le
    omega

/-- What the loop over the static VLANs does to the table. -/
theorem saveVlans_spec (cfg : Cfg) (cs : List VlanCfg) : ∀ (i : ℕ) (o : VlanObj),
    i + cs.length ≤ vlansMax →
    let saved := cs.takeWhile fun c => decide (checkVlanCfg cfg c = sok)
    ∃ vlan, (saveVlans cfg i cs o).2 =
        { o with vlan := vlan, numVlans := o.numVlans + saved.length } ∧
      ∀ j : Fin vlansMax, vlan j =
        if j.val < i then o.vlan j else (saved[j.val - i]?).elim (o.vlan j) staticEntry := by
  induction cs with
  | nil =>
    intro i o _
    exact ⟨o.vlan,rfl,fun j => by simp⟩
  | cons c cs ih =>
    intro i o hlen
    have hlen' : i + (cs.length + 1) ≤ vlansMax := by simpa using hlen
    have hi : i < vlansMax := by omega
    by_cases hc : checkVlanCfg cfg c = sok
    · obtain ⟨vlan,hstate,htable⟩ := ih (i + 1) (saveVlan o i c) (by omega)
      have hsave : saveVlan o i c =
          { o with vlan := update o.vlan ⟨i,hi⟩ (staticEntry c), numVlans := o.numVlans + 1 } := by
        unfold saveVlan
        rw [dif_pos hi]
      rw [hsave] at hstate htable
      refine ⟨vlan,?_,fun j => ?_⟩
      · simp only [saveVlans,hc,if_true,hsave,hstate,List.takeWhile_cons,decide_true,
          List.length_cons]
        rw [Nat.add_assoc,Nat.add_comm 1]
      · rw [htable j]
        simp only [List.takeWhile_cons,hc,decide_true,if_true]
        rcases Nat.lt_trichotomy j.val i with hj | hj | hj
        · have hne : j ≠ ⟨i,hi⟩ := Fin.ne_of_lt hj
          rw [if_pos (by omega),if_pos hj,update_of_ne hne]
        · have heq : j = ⟨i,hi⟩ := Fin.ext hj
          rw [if_pos (by omega),if_neg (by omega),hj,Nat.sub_self,heq,update_self]
          rfl
        · have hne : j ≠ ⟨i,hi⟩ := Fin.ne_of_gt hj
          obtain ⟨k,hk⟩ : ∃ k, j.val - i = k + 1 := ⟨j.val - i - 1,by omega⟩
          have hk' : j.val - (i + 1) = k := by omega
          rw [if_neg (by omega),if_neg (by omega),update_of_ne hne,hk,hk',
            List.getElem?_cons_succ]
    · refine ⟨o.vlan,?_,fun j => ?_⟩
      · simp [saveVlans,hc]
      · simp [hc]

/-- What saving the configuration does to the table. -/
theorem getCfg_spec (cfg : Cfg) (o : VlanObj) : ∃ vlan, (getCfg cfg o).2 =
      { o with vlan := vlan, numVlans := o.numVlans + (accepted cfg).length } ∧
    ∀ j : Fin vlansMax, vlan j = ((accepted cfg)[j.val]?).elim (o.vlan j) staticEntry := by
  unfold getCfg accepted
  by_cases hlen : vlansMax < cfg.vlanCfg.length
  · rw [if_pos hlen,if_pos hlen]
    exact ⟨o.vlan,rfl,fun j => rfl⟩
  · rw [if_neg hlen,if_neg hlen]
    obtain ⟨vlan,hstate,htable⟩ := saveVlans_spec cfg cfg.vlanCfg 0 o (by omega)
    exact ⟨vlan,hstate,fun j => by simpa using htable j⟩

/-- Adding the static VLANs to the ALE changes the ALE alone. -/
theorem setupStatic_state (ioctl : ℕ → Status) (is : List ℕ) : ∀ r : Status × VlanObj,
    ∃ ale, (is.foldl (setupStatic ioctl) r).2 = { r.2 with ale := ale } := by
  induction is with
  | nil => exact fun r => ⟨r.2.ale,rfl⟩
  | cons i is ih =>
    intro r
    have hround : (setupStatic ioctl r i).2 =
        { r.2 with ale := (setupStatic ioctl r i).2.ale } := by
      unfold setupStatic
      split
      · split
        · rfl
        · exact setupVlan_state
      · rfl
    obtain ⟨ale,h⟩ := ih (setupStatic ioctl r i)
    refine ⟨ale,?_⟩
    rw [List.foldl_cons,h,hround]

/-- What initialisation with its mutex does, but for the ALE. -/
theorem init_spec (o : VlanObj) (cfg : Cfg) (ioctl : ℕ → Status) :
    ∃ vlan ale, (init o cfg true ioctl).2 =
      { o with
        vlan := vlan
        numVlans := o.numVlans + (accepted cfg).length
        defaultPortMask := cfg.defaultPortMask
        defaultVirtPortMask := cfg.defaultVirtPortMask
        dVlanSwtFwdEn := cfg.dVlanSwtFwdEn
        hMutex := true
        ale := ale } ∧
    ∀ j : Fin vlansMax, vlan j = ((accepted cfg)[j.val]?).elim
      { o.vlan j with isFree := true, isStatic := false } staticEntry := by
  obtain ⟨vlan,hstate,htable⟩ := getCfg_spec cfg (freeAll
    { o with defaultPortMask := cfg.defaultPortMask
             defaultVirtPortMask := cfg.defaultVirtPortMask
             dVlanSwtFwdEn := cfg.dVlanSwtFwdEn
             hMutex := true })
  unfold init
  rw [if_pos rfl]
  dsimp only
  split
  · obtain ⟨ale,h⟩ := setupStatic_state ioctl (List.range (getCfg cfg _).2.numVlans)
      (sok,(getCfg cfg _).2)
    refine ⟨vlan,ale,?_,htable⟩
    rw [h,hstate]
    rfl
  · refine ⟨vlan,o.ale,?_,htable⟩
    rw [hstate]
    rfl

/-- Deinitialisation leaves the table as it is. -/
theorem deinit_state (ioctl : ℕ → Status) :
    deinit o ioctl = { o with hMutex := false, ale := (deinit o ioctl).ale } := by
  have hloop : ∀ (is : List ℕ) (o : VlanObj), ∃ ale, is.foldl (fun o i =>
      if h : i < vlansMax then deleteVlan o (ioctl i) (o.vlan ⟨i,h⟩).vlanId else o) o =
        { o with ale := ale } := by
    intro is
    induction is with
    | nil => exact fun o => ⟨o.ale,rfl⟩
    | cons i is ih =>
      intro o
      rw [List.foldl_cons]
      split
      · rw [deleteVlan_state]
        exact ih _
      · exact ih o
  obtain ⟨ale,h⟩ := hloop (List.range o.numVlans) o
  unfold deinit
  rw [h]

/-- Calls that use an initialised table. -/
inductive Call where
  /-- A virtual port joins a VLAN. -/
  | join (virtPort : PortId) (vlanId : U16) (macAddr : MacAddr) (ioctl : Status)
  /-- A virtual port leaves a VLAN. -/
  | leave (virtPort : PortId) (vlanId : U16) (macAddr : MacAddr) (setup remove : Status)
  /-- Another user of the VEPA table leaves it with this content. -/
  | vepaUse (table : VepaTable.Table)

/-- State after a call. -/
def serve (o : VlanObj) : Call → VlanObj
  | .join virtPort vlanId macAddr ioctl => (join o virtPort vlanId macAddr ioctl).2
  | .leave virtPort vlanId macAddr setup remove =>
    (leave o virtPort vlanId macAddr setup remove).2
  | .vepaUse table => { o with vepa := o.vepa.map fun _ => table }

/-- The object before its first initialisation: zeroes. -/
def zeroed (ale : U16 → Option AleVlan) (vepa : Option VepaTable.Table) : VlanObj where
  vlan := fun _ => ⟨0#16,0#32,0#32,0#32,0#32,0#32,0#32,false,false⟩
  numVlans := 0
  defaultPortMask := 0#32
  defaultVirtPortMask := 0#32
  dVlanSwtFwdEn := false
  hMutex := false
  ale := ale
  vepa := vepa

/-- The object after its first initialisation with a mutex. -/
def startUp (ale : U16 → Option AleVlan) (vepa : Option VepaTable.Table) (cfg : Cfg)
    (ioctl : ℕ → Status) : VlanObj := (init (zeroed ale vepa) cfg true ioctl).2

end EthernetFirmware.VlanTable
