import EthernetFirmware.ProxyServerRxFlows
import EthernetFirmware.McastExclusive
import EthernetFirmware.VepaClients
import EthernetFirmware.VlanJoinLeave

/-!
# MAC addresses on the primary flow

REGISTER_MAC, DEREGISTER_MAC and ADD_FILTER_MAC with everything they act
on: the classifiers of MAC addresses, the unicast entries and policers of
the MAC ports, the count of a client's registrations, the VEPA object and
the multicast filter. All three look up the relative flow of the request's
offset and go on for the primary flow only; an offset that the port's table
does not have leaves the local variable of the handler as it is.
-/

namespace EthernetFirmware.ProxyServerMacFlows

open Function GuardedRuns RemoteConfig ProxyServerClients ProxyServerRequests
  ProxyServerResources ProxyServerRxFlows VepaClients

/-- What the external calls return while a request is served. -/
structure MacOutcomes extends Outcomes where
  /-- What the uninitialised local variable `relFlowIdx` holds. -/
  relFlowIdx : U32
  /-- `EnetAppUtils_regDstMacRxFlow` or `EnetAppUtils_unregDstMacRxFlow`. -/
  classifier : Status
  /-- The ioctls of `EthFwVepa_registerClient`. -/
  register : RegisterOutcomes
  /-- The ioctls of `EthFwVepa_unregisterClient`. -/
  unregister : UnregisterOutcomes
  /-- `CPSW_ALE_IOCTL_ADD_UCAST`. -/
  addUcast : Status
  /-- The ioctl that sets the policer of a MAC port. -/
  setPortPolicer : Status
  /-- `CPSW_ALE_IOCTL_GET_POLICER`. -/
  getPortPolicer : Status
  /-- The thread of the policer found, when it is enabled. -/
  portThread : Option U32
  /-- The ioctl that deletes the policer of a MAC port. -/
  delPortPolicer : Status
  /-- `CPSW_ALE_IOCTL_REMOVE_ADDR`. -/
  removeUcast : Status
  /-- The ioctls of an add to the multicast filter. -/
  filter : McastFilter.AddOutcomes

/-- The server with what the requests about MAC addresses act on. -/
structure MacServer (procs : ℕ) where
  /-- Server and platform. -/
  world : World procs
  /-- Multicast filter; it holds the VEPA object in builds with VEPA. -/
  mcast : McastFilter.McastObj
  /-- Clients of the VEPA object. -/
  clients : Clients
  /-- VLAN table. -/
  vlan : VlanTable.VlanObj
  /-- Classifiers of MAC addresses: core, flow offset and address. -/
  dstMac : List (Fin procs × U32 × MacAddr)
  /-- Unicast entries of the host port. -/
  ucast : MacAddr → Bool
  /-- Thread of the policer of each MAC port. -/
  portPolicer : U32 → Option U32

/-- Requests about MAC addresses. -/
inductive MacCmd where
  /-- `ETHREMOTECFG_CMD_REGISTER_MAC`. -/
  | registerMac (macAddr : MacAddr) (flowIdxBase flowIdxOffset : U32)
  /-- `ETHREMOTECFG_CMD_DEREGISTER_MAC`. -/
  | unregisterMac (macAddr : MacAddr) (flowIdxBase flowIdxOffset : U32)
  /-- `ETHREMOTECFG_CMD_ADD_FILTER_MAC`. -/
  | filterAddMac (macAddr : MacAddr) (vlanId : U16) (flowIdxBase flowIdxOffset : U32)

/-- Flow offset of a request. -/
def MacCmd.flowIdxOffset : MacCmd → U32
  | .registerMac _ _ offset => offset
  | .unregisterMac _ _ offset => offset
  | .filterAddMac _ _ _ offset => offset

variable {procs : ℕ}

/-- The VEPA object, in builds with VEPA. -/
def MacServer.vepa (s : MacServer procs) : Option Vepa := s.mcast.vepa.map fun o => ⟨o,s.clients⟩

/-- Replace the VEPA object. -/
def MacServer.withVepa (s : MacServer procs) (v : Vepa) : MacServer procs :=
  { s with mcast := { s.mcast with vepa := some v.obj }, clients := v.clients }

/-- Rewrite a client's count of registrations. -/
def MacServer.count (s : MacServer procs) (core : Fin procs) (i : Slot) (f : U32 → U32) :
    MacServer procs :=
  { s with world := s.world.modifyClient core i fun c => { c with vlanRefCnt := f c.vlanRefCnt } }

/-- `EthFwVirtPort_isSwitchPort` for the port of a client. -/
abbrev onSwitch (p : PortId) : Prop := isSwitchPort p.val = true

section Handlers

variable (s : MacServer procs) (core : Fin procs) (i : Slot) (p : PortId) (x : MacOutcomes)

/-- `CpswProxyServer_regMacPortFlow`. -/
def regMacPortFlow (macAddr : MacAddr) (flowIdx : U32) : Status × MacServer procs :=
  if macAddr.isMcast then (enotSupported,s)
  else if x.addUcast = sok then
    let s1 := { s with ucast := update s.ucast macAddr true }
    if x.setPortPolicer = sok then
      (sok,{ s1 with portPolicer := update s.portPolicer (getMacPort p.val) (some flowIdx) })
    else (x.setPortPolicer,s1)
  else (x.addUcast,s)

/-- `CpswProxyServer_unregMacPortFlow`. -/
def unregMacPortFlow (macAddr : MacAddr) (flowIdx : U32) : Status × MacServer procs :=
  if macAddr.isMcast then (enotSupported,s)
  else if x.getPortPolicer = sok then
    if x.portThread = some flowIdx then
      if x.delPortPolicer = sok then
        let s1 := { s with portPolicer := update s.portPolicer (getMacPort p.val) none }
        if x.removeUcast = sok then (sok,{ s1 with ucast := update s.ucast macAddr false })
        else (x.removeUcast,s1)
      else (x.delPortPolicer,s)
    else (einvalidParams,s)
  else (x.getPortPolicer,s)

/-- The part of `CpswProxyServer_registerMacHandlerCb` for switch ports. The
classifier stays when the VEPA object refuses the client. -/
def registerSwitch (macAddr : MacAddr) (flowIdxOffset : U32) : Status × MacServer procs :=
  if x.classifier = sok then
    let s1 := { s with dstMac := s.dstMac ++ [(core,flowIdxOffset,macAddr)] }
    match s.vepa with
    | some v =>
      if (s.world.client core i).vlanRefCnt = 0#32 then
        let r := registerClient v flowIdxOffset p macAddr x.register
        let s2 := s1.withVepa r.vepa
        if r.status = sok then (sok,s2.count core i (· + 1#32)) else (r.status,s2)
      else (sok,s1.count core i (· + 1#32))
    | none => (sok,s1)
  else (x.classifier,s)

/-- The part of `CpswProxyServer_unregisterMacHandlerCb` for switch ports. The
count is lowered without a check. -/
def unregisterSwitch (macAddr : MacAddr) (flowIdxOffset : U32) : Status × MacServer procs :=
  if x.classifier = sok then
    let s1 := { s with dstMac := s.dstMac.erase (core,flowIdxOffset,macAddr) }
    match s.vepa with
    | some v =>
      let s2 := s1.count core i (· - 1#32)
      if (s2.world.client core i).vlanRefCnt = 0#32 then
        let r := unregisterClient v p x.unregister
        (r.status,s2.withVepa r.vepa)
      else (sok,s2)
    | none => (sok,s1)
  else (x.classifier,s)

/-- The check all three handlers start with: the server is ready and the
offset leads to the primary flow of the client's port. -/
def primaryStatus (flowIdxOffset : U32) : Status :=
  if getHandle s.world.server = sok then
    McastFilter.flowStatus
      (getRelFlowIdx s.world.server (s.world.client core i).virtPort flowIdxOffset x.relFlowIdx)
  else getHandle s.world.server

/-- `CpswProxyServer_registerMacHandlerCb`. -/
def registerMacHandlerCb (macAddr : MacAddr) (flowIdxBase flowIdxOffset : U32) :
    Status × MacServer procs :=
  if primaryStatus s core i x flowIdxOffset = sok then
    if validateStartIdx x.toOutcomes flowIdxBase = sok then
      if onSwitch p then registerSwitch s core i p x macAddr flowIdxOffset
      else regMacPortFlow s p x macAddr flowIdxOffset
    else (validateStartIdx x.toOutcomes flowIdxBase,s)
  else (primaryStatus s core i x flowIdxOffset,s)

/-- `CpswProxyServer_unregisterMacHandlerCb`. -/
def unregisterMacHandlerCb (macAddr : MacAddr) (flowIdxBase flowIdxOffset : U32) :
    Status × MacServer procs :=
  if primaryStatus s core i x flowIdxOffset = sok then
    if validateStartIdx x.toOutcomes flowIdxBase = sok then
      if onSwitch p then unregisterSwitch s core i p x macAddr flowIdxOffset
      else unregMacPortFlow s p x macAddr flowIdxOffset
    else (validateStartIdx x.toOutcomes flowIdxBase,s)
  else (primaryStatus s core i x flowIdxOffset,s)

/-- `CpswProxyServer_filterAddMacHandlerCb`; the flow index base is not
looked at. -/
def filterAddMacHandlerCb (macAddr : MacAddr) (vlanId : U16) (flowIdxOffset : U32) :
    Status × MacServer procs :=
  let r := McastFilter.requestVlan (primaryStatus s core i x flowIdxOffset) macAddr vlanId
    (VlanTable.isInVlan s.vlan p vlanId)
  if r.1 = sok then
    let f := McastFilter.filterAddMac s.mcast p macAddr r.2 x.filter
    (f.1,{ s with mcast := f.2 })
  else (r.1,s)

/-- The handler of a request of a client on the port. -/
def macHandlerCb : MacCmd → Status × MacServer procs
  | .registerMac macAddr base offset => registerMacHandlerCb s core i p x macAddr base offset
  | .unregisterMac macAddr base offset => unregisterMacHandlerCb s core i p x macAddr base offset
  | .filterAddMac macAddr vlanId _ offset =>
    filterAddMacHandlerCb s core i p x macAddr vlanId offset

end Handlers

section Guard

variable {s : MacServer procs} {core : Fin procs} {i : Slot} {p : PortId} {offset : U32}
  {x : MacOutcomes}

/-- The offset is the one stored for the primary flow of the port. -/
def Primary (s : MacServer procs) (p : PortId) (offset : U32) : Prop :=
  tableEntry s.world.server p.val 0#32 = some offset

instance (s : MacServer procs) (p : PortId) (offset : U32) : Decidable (Primary s p offset) :=
  inferInstanceAs (Decidable (_ = _))

/-- The offset is stored for some flow of the port. -/
def Stored (s : MacServer procs) (p : PortId) (offset : U32) : Prop :=
  ∃ c, findCfg s.world.server p.val = some c ∧ offset ∈ c.rxFlowIdxOffset

/-- Tables of flow offsets are indexed by words. -/
def TablesFit (s : MacServer procs) : Prop :=
  ∀ c ∈ s.world.server.virtPortCfg, c.rxFlowIdxOffset.length ≤ 2 ^ 32

/-- On another offset than that of the primary flow the request is refused
without effect, whatever the external calls return and the local variable of
the handler holds. -/
def GuardHolds (s : MacServer procs) (core : Fin procs) (i : Slot) (p : PortId) (c : MacCmd) :
    Prop :=
  ¬ Primary s p c.flowIdxOffset → ∀ x, (macHandlerCb s core i p x c).1 ≠ sok ∧
    (macHandlerCb s core i p x c).2 = s

/-- The filter refuses every add of the address: it is reserved, its entry in
the ALE is left over from an add that failed for want of a duplication flow,
another port has claimed it, or it is new and the table is full. -/
def AddRefused (o : McastFilter.McastObj) (p : PortId) (a : MacAddr) (v : U16) : Prop :=
  McastFilter.isRsvdMcast o a v = true ∨
  (∃ k, McastFilter.getSharedMcastInfo o a = some k ∧ (o.sharedMcast k).refCnt = 0#32 ∧
    o.ale a = some (o.sharedMcast k).portMask ∧ ∃ vepa, o.vepa = some vepa ∧
      vepa.packetDuplicationFlowIdx = VepaTable.pktDupFlowIdxUndefined) ∨
  McastFilter.getSharedMcastInfo o a = none ∧
    ((∃ k, McastFilter.getExclusiveMcastInfo o a = some k ∧
      (o.exclusiveMcast k).virtPort ≠ p.val) ∨
    McastFilter.getExclusiveMcastInfo o a = none ∧ ∀ k, (o.exclusiveMcast k).isFree = false)

/-- The checks behind the guard refuse the request: a group address on a MAC
port, or an address that the filter's handler or the filter refuses. -/
def LaterRefused (s : MacServer procs) (p : PortId) : MacCmd → Prop
  | .registerMac a _ _ => ¬ onSwitch p ∧ a.isMcast = true
  | .unregisterMac a _ _ => ¬ onSwitch p ∧ a.isMcast = true
  | .filterAddMac a v _ _ =>
    let r := McastFilter.requestVlan sok a v (VlanTable.isInVlan s.vlan p v)
    r.1 = sok → AddRefused s.mcast p a r.2

/-- The condition: the search finds the offset, or the request is refused
anyhow. -/
def Recognised (s : MacServer procs) (p : PortId) (c : MacCmd) : Prop :=
  Stored s p c.flowIdxOffset ∨ getHandle s.world.server ≠ sok ∨ LaterRefused s p c

theorem Primary.stored (h : Primary s p offset) : Stored s p offset := by
  unfold Primary tableEntry at h
  obtain ⟨c,hc,hentry⟩ := Option.bind_eq_some_iff.mp h
  exact ⟨c,hc,List.mem_of_getElem? hentry⟩

/-- The search ends at the first flow with the offset of the primary flow. -/
theorem primaryStatus_primary (hp : (s.world.client core i).virtPort = p.val)
    (hready : getHandle s.world.server = sok) (h : Primary s p offset) :
    primaryStatus s core i x offset = sok := by
  unfold Primary tableEntry at h
  obtain ⟨c,hc,hentry⟩ := Option.bind_eq_some_iff.mp h
  have hidx : c.rxFlowIdxOffset.idxOf? offset = some 0 := by
    cases hl : c.rxFlowIdxOffset with
    | nil => simp [hl] at hentry
    | cons b l =>
      rw [hl] at hentry
      obtain rfl : b = offset := by simpa using hentry
      simp [List.idxOf?_cons]
  unfold primaryStatus getRelFlowIdx
  rw [if_pos hready,hp,hc,Option.bind_some,hidx]
  rfl

/-- An offset stored for another flow only is not supported. -/
theorem primaryStatus_stored (hp : (s.world.client core i).virtPort = p.val)
    (hfit : TablesFit s) (hstored : Stored s p offset) (h : ¬ Primary s p offset) :
    primaryStatus s core i x offset ≠ sok := by
  obtain ⟨c,hc,hmem⟩ := hstored
  unfold primaryStatus
  by_cases hready : getHandle s.world.server = sok
  · rw [if_pos hready,hp]
    obtain ⟨j,hj⟩ : ∃ j, c.rxFlowIdxOffset.idxOf? offset = some j := by
      cases hidx : c.rxFlowIdxOffset.idxOf? offset with
      | none => exact absurd hmem (List.idxOf?_eq_none_iff.mp hidx)
      | some j => exact ⟨j,rfl⟩
    have hlt : j < 2 ^ 32 := by
      obtain ⟨hj',-⟩ := List.idxOf?_eq_some_iff.mp hj
      exact hj'.trans_le (hfit c (List.mem_of_find?_eq_some hc))
    have hne : BitVec.ofNat 32 j ≠ McastFilter.primaryRelFlowIdx := by
      intro hz
      have hnat := congrArg BitVec.toNat hz
      rw [BitVec.toNat_ofNat,Nat.mod_eq_of_lt hlt] at hnat
      obtain rfl : j = 0 := hnat
      refine h ?_
      unfold Primary
      rw [tableEntry_eq hc]
      exact getElem?_of_idxOf? hj
    unfold getRelFlowIdx McastFilter.flowStatus
    rw [hc,Option.bind_some,hj]
    dsimp only
    rw [if_pos rfl,if_neg hne]
    exact enotSupported_ne_sok
  · rw [if_neg hready]
    exact hready

/-- An offset that is not stored passes when the local variable is zero. -/
theorem primaryStatus_unstored (hp : (s.world.client core i).virtPort = p.val)
    (hready : getHandle s.world.server = sok) (h : ¬ Stored s p offset)
    (hx : x.relFlowIdx = 0#32) : primaryStatus s core i x offset = sok := by
  have hnone : ((findCfg s.world.server p.val).bind fun c =>
      c.rxFlowIdxOffset.idxOf? offset) = none := by
    rw [Option.bind_eq_none_iff]
    intro c hc
    exact List.idxOf?_eq_none_iff.mpr fun hmem => h ⟨c,hc,hmem⟩
  unfold primaryStatus getRelFlowIdx
  rw [if_pos hready,hp,hnone,hready,hx]
  rfl

/-- Without the primary flow nothing else is looked at. -/
theorem macHandlerCb_refused (c : MacCmd)
    (h : primaryStatus s core i x c.flowIdxOffset ≠ sok) :
    (macHandlerCb s core i p x c).1 ≠ sok ∧ (macHandlerCb s core i p x c).2 = s := by
  cases c with
  | registerMac a base offset =>
    change primaryStatus s core i x offset ≠ sok at h
    unfold macHandlerCb registerMacHandlerCb
    dsimp only
    rw [if_neg h]
    exact ⟨h,rfl⟩
  | unregisterMac a base offset =>
    change primaryStatus s core i x offset ≠ sok at h
    unfold macHandlerCb unregisterMacHandlerCb
    dsimp only
    rw [if_neg h]
    exact ⟨h,rfl⟩
  | filterAddMac a v base offset =>
    change primaryStatus s core i x offset ≠ sok at h
    have hvlan : (McastFilter.requestVlan (primaryStatus s core i x offset) a v
        (VlanTable.isInVlan s.vlan p v)).1 ≠ sok := by
      unfold McastFilter.requestVlan
      cases a.isMcast <;> simp [h]
    unfold macHandlerCb filterAddMacHandlerCb
    dsimp only
    rw [if_neg hvlan]
    exact ⟨hvlan,rfl⟩

/-- Outcomes with which every call succeeds and the local variable is zero. -/
def generousOutcomes (flowIdxBase flowIdxOffset : U32) : MacOutcomes where
  toOutcomes := { plainOutcomes fun _ => 1518#32 with startFlowIdx := flowIdxBase }
  relFlowIdx := 0#32
  classifier := sok
  register := ⟨sok,sok,sok⟩
  unregister := ⟨sok,sok⟩
  addUcast := sok
  setPortPolicer := sok
  getPortPolicer := sok
  portThread := some flowIdxOffset
  delPortPolicer := sok
  removeUcast := sok
  filter := ⟨enotfound,sok,sok⟩

/-- A shared address without the duplication flow it needs is refused without effect. -/
theorem filterAddMac_undefinedFlow {o : McastFilter.McastObj} {a : MacAddr} {v : U16}
    {y : McastFilter.AddOutcomes} {k : Fin McastFilter.sharedMcastListLen}
    {vepa : VepaTable.VepaObj}
    (hr : McastFilter.isRsvdMcast o a v = false)
    (hk : McastFilter.getSharedMcastInfo o a = some k) (hz : (o.sharedMcast k).refCnt = 0#32)
    (hale : o.ale a = some (o.sharedMcast k).portMask) (hv : o.vepa = some vepa)
    (hflow : vepa.packetDuplicationFlowIdx = VepaTable.pktDupFlowIdxUndefined) :
    (McastFilter.filterAddMac o p a v y).1 ≠ sok ∧ (McastFilter.filterAddMac o p a v y).2 = o := by
  have hno : ¬ McastFilter.AddGoes o k y := by
    intro hgo
    have hpol := (hgo hz).2 vepa hv
    unfold VepaTable.addMcastPolicer at hpol
    rw [if_pos hflow] at hpol
    exact efail_ne_sok hpol
  obtain ⟨hst,hobj⟩ := McastFilter.filterAddMac_fails (p := p) hr hk hno
  refine ⟨hst,hobj.trans ?_⟩
  rw [← hale,update_eq_self,ite_self]

/-- So is an exclusive address of another port, or a new one when the table is full. -/
theorem filterAddMac_taken {o : McastFilter.McastObj} {a : MacAddr} {v : U16}
    {y : McastFilter.AddOutcomes} (hr : McastFilter.isRsvdMcast o a v = false)
    (hs : McastFilter.getSharedMcastInfo o a = none)
    (h : (∃ k, McastFilter.getExclusiveMcastInfo o a = some k ∧
        (o.exclusiveMcast k).virtPort ≠ p.val) ∨
      McastFilter.getExclusiveMcastInfo o a = none ∧
        ∀ k, (o.exclusiveMcast k).isFree = false) :
    (McastFilter.filterAddMac o p a v y).1 ≠ sok ∧ (McastFilter.filterAddMac o p a v y).2 = o := by
  have heff := McastExclusive.filterAddMac_effect (p := p) (x := y) hr hs
  revert heff
  generalize McastFilter.filterAddMac o p a v y = r
  intro heff
  cases heff with
  | again k hk hown =>
    rcases h with ⟨j,hj,hother⟩ | ⟨hnone,-⟩
    · obtain rfl : k = j := Option.some.inj (hk.symm.trans hj)
      exact absurd hown hother
    · exact absurd (hk.symm.trans hnone) (by simp)
  | other k st hk hown hst => exact ⟨hst,rfl⟩
  | refused st hk hfull hst => exact ⟨hst,rfl⟩
  | claimed k st ale hk hlook hfree hst =>
    rcases h with ⟨j,hj,-⟩ | ⟨-,hfull⟩
    · exact absurd (hk.symm.trans hj) (by simp)
    · exact absurd (hfree.symm.trans (hfull k)) (by simp)

/-- An address refused for good is refused without effect whatever the ioctls return. -/
theorem AddRefused.refuses {o : McastFilter.McastObj} {a : MacAddr} {v : U16}
    (h : AddRefused o p a v) (y : McastFilter.AddOutcomes) :
    (McastFilter.filterAddMac o p a v y).1 ≠ sok ∧
      (McastFilter.filterAddMac o p a v y).2 = o := by
  cases hr : McastFilter.isRsvdMcast o a v with
  | true =>
    rw [McastFilter.filterAddMac_reserved hr]
    exact ⟨ebadArgs_ne_sok,rfl⟩
  | false =>
    rcases h with hrsvd | ⟨k,hk,hz,hale,vepa,hv,hflow⟩ | ⟨hs,hrest⟩
    · exact absurd (hrsvd.symm.trans hr) (by decide)
    · exact filterAddMac_undefinedFlow hr hk hz hale hv hflow
    · exact filterAddMac_taken hr hs hrest

/-- The filter refuses an address for good exactly when it refuses it without
effect whatever its ioctls return. -/
theorem addRefused_iff {o : McastFilter.McastObj} {a : MacAddr} {v : U16} :
    AddRefused o p a v ↔ ∀ y, (McastFilter.filterAddMac o p a v y).1 ≠ sok ∧
      (McastFilter.filterAddMac o p a v y).2 = o := by
  refine ⟨AddRefused.refuses,fun h => ?_⟩
  -- Ioctls that all succeed leave the filter no other reason to refuse.
  obtain ⟨hst,hobj⟩ := h ⟨enotfound,sok,sok⟩
  cases hr : McastFilter.isRsvdMcast o a v with
  | true => exact Or.inl hr
  | false =>
    refine Or.inr ?_
    cases hs : McastFilter.getSharedMcastInfo o a with
    | some k =>
      have hno : ¬ McastFilter.AddGoes o k ⟨enotfound,sok,sok⟩ := by
        intro hgo
        obtain ⟨vepa,hgoes⟩ := McastFilter.filterAddMac_goes (p := p) hr hs hgo
        rw [hgoes] at hst
        exact hst rfl
      obtain ⟨-,hale⟩ := McastFilter.filterAddMac_fails (p := p) hr hs hno
      obtain ⟨hz,hpol⟩ := Classical.not_imp.mp hno
      refine Or.inl ⟨k,rfl,hz,?_,?_⟩
      · have hsame := congrFun (congrArg McastFilter.McastObj.ale (hale.symm.trans hobj)) a
        rw [← hsame]
        exact update_self ..
      · by_contra hundef
        refine hpol ⟨rfl,fun vepa hv => if_neg fun hflow => hundef ⟨vepa,hv,hflow⟩⟩
    | none =>
      refine Or.inr ⟨rfl,?_⟩
      have heff := McastExclusive.filterAddMac_effect (p := p) (x := ⟨enotfound,sok,sok⟩) hr hs
      revert heff hst
      generalize McastFilter.filterAddMac o p a v ⟨enotfound,sok,sok⟩ = r
      intro hst heff
      cases heff with
      | again k hk hown => exact absurd rfl hst
      | other k st hk hown hst => exact Or.inl ⟨k,hk,hown⟩
      | refused st hk hfull hst => exact Or.inr ⟨hk,hfull rfl⟩
      | claimed k st ale hk hlook hfree hok => exact absurd (hok.mpr ⟨rfl,rfl⟩) hst

/-- A group address on a MAC port is refused. -/
theorem portFlow_mcast {a : MacAddr} (ha : a.isMcast = true) :
    regMacPortFlow s p x a offset = (enotSupported,s) ∧
      unregMacPortFlow s p x a offset = (enotSupported,s) :=
  ⟨if_pos ha,if_pos ha⟩

/-- A request that the later checks refuse has no effect. -/
theorem macHandlerCb_of_laterRefused (c : MacCmd) (h : LaterRefused s p c) :
    (macHandlerCb s core i p x c).1 ≠ sok ∧ (macHandlerCb s core i p x c).2 = s := by
  by_cases hst : primaryStatus s core i x c.flowIdxOffset = sok
  · cases c with
    | registerMac a base offset =>
      change primaryStatus s core i x offset = sok at hst
      obtain ⟨hport,ha⟩ := h
      unfold macHandlerCb registerMacHandlerCb
      dsimp only
      rw [if_pos hst,if_neg hport,(portFlow_mcast ha).1]
      split
      · exact ⟨enotSupported_ne_sok,rfl⟩
      · exact ⟨‹_›,rfl⟩
    | unregisterMac a base offset =>
      change primaryStatus s core i x offset = sok at hst
      obtain ⟨hport,ha⟩ := h
      unfold macHandlerCb unregisterMacHandlerCb
      dsimp only
      rw [if_pos hst,if_neg hport,(portFlow_mcast ha).2]
      split
      · exact ⟨enotSupported_ne_sok,rfl⟩
      · exact ⟨‹_›,rfl⟩
    | filterAddMac a v base offset =>
      change primaryStatus s core i x offset = sok at hst
      unfold macHandlerCb filterAddMacHandlerCb
      dsimp only
      rw [hst]
      split
      · rename_i hvlan
        obtain ⟨hadd,hobj⟩ := addRefused_iff.mp (h hvlan) x.filter
        refine ⟨hadd,?_⟩
        rw [hobj]
      · exact ⟨‹_›,rfl⟩
  · exact macHandlerCb_refused c hst

theorem start_generous (base offset : U32) :
    validateStartIdx (generousOutcomes base offset).toOutcomes base = sok := if_pos rfl

/-- A registration that sets its classifier adds it to the others. -/
theorem registerSwitch_dstMac {a : MacAddr} (hx : x.classifier = sok) :
    (registerSwitch s core i p x a offset).2.dstMac = s.dstMac ++ [(core,offset,a)] := by
  unfold registerSwitch
  rw [if_pos hx]
  dsimp only
  cases s.vepa with
  | none => rfl
  | some v =>
    dsimp only
    split
    · split <;> rfl
    · rfl

/-- A deregistration that removes its classifier lowers the count. -/
theorem unregisterSwitch_world {a : MacAddr} {v : Vepa} (hx : x.classifier = sok)
    (hv : s.vepa = some v) :
    (unregisterSwitch s core i p x a offset).2.world = (s.count core i (· - 1#32)).world := by
  unfold unregisterSwitch
  rw [if_pos hx,hv]
  dsimp only
  split <;> rfl

theorem client_count (f : U32 → U32) : (s.count core i f).world.client core i =
    { s.world.client core i with vlanRefCnt := f (s.world.client core i).vlanRefCnt } :=
  client_modifyClient_self ..

/-- A request that passes the guard is accepted or changes the server for some
outcome of its calls, unless the later checks refuse it. -/
theorem macHandlerCb_goes (c : MacCmd) (hlater : ¬ LaterRefused s p c)
    (hst : ∀ x, x.relFlowIdx = 0#32 → primaryStatus s core i x c.flowIdxOffset = sok) :
    ¬ ∀ x, (macHandlerCb s core i p x c).1 ≠ sok ∧ (macHandlerCb s core i p x c).2 = s := by
  intro h
  cases c with
  | registerMac a base offset =>
    obtain ⟨hne,hsame⟩ := h (generousOutcomes base offset)
    have hpass : primaryStatus s core i (generousOutcomes base offset) offset = sok :=
      hst _ rfl
    unfold macHandlerCb registerMacHandlerCb at hne hsame
    dsimp only at hne hsame
    rw [if_pos hpass,if_pos (start_generous base offset)] at hne hsame
    by_cases hport : onSwitch p
    · rw [if_pos hport] at hsame
      have hmac := congrArg MacServer.dstMac hsame
      rw [registerSwitch_dstMac rfl] at hmac
      simp at hmac
    · rw [if_neg hport] at hne
      have ha : ¬ a.isMcast = true := fun ha => hlater ⟨hport,ha⟩
      unfold regMacPortFlow at hne
      rw [if_neg ha] at hne
      exact hne rfl
  | unregisterMac a base offset =>
    obtain ⟨hne,hsame⟩ := h (generousOutcomes base offset)
    have hpass : primaryStatus s core i (generousOutcomes base offset) offset = sok :=
      hst _ rfl
    unfold macHandlerCb unregisterMacHandlerCb at hne hsame
    dsimp only at hne hsame
    rw [if_pos hpass,if_pos (start_generous base offset)] at hne hsame
    by_cases hport : onSwitch p
    · rw [if_pos hport] at hne hsame
      cases hv : s.vepa with
      | none =>
        unfold unregisterSwitch at hne
        rw [hv] at hne
        exact hne rfl
      | some v =>
        have hcnt := congrArg (fun t => (t.world.client core i).vlanRefCnt) hsame
        rw [unregisterSwitch_world rfl hv,client_count] at hcnt
        bv_omega
    · rw [if_neg hport] at hne
      have ha : ¬ a.isMcast = true := fun ha => hlater ⟨hport,ha⟩
      unfold unregMacPortFlow at hne
      rw [if_neg ha] at hne
      exact hne (by simp [generousOutcomes])
  | filterAddMac a v base offset =>
    obtain ⟨hvlan,hadd⟩ := Classical.not_imp.mp hlater
    rw [addRefused_iff] at hadd
    refine hadd fun y => ?_
    obtain ⟨hne,hsame⟩ := h { generousOutcomes base offset with filter := y }
    have hpass : primaryStatus s core i { generousOutcomes base offset with filter := y } offset =
        sok := hst _ rfl
    unfold macHandlerCb filterAddMacHandlerCb at hne hsame
    dsimp only at hne hsame
    rw [hpass,if_pos hvlan] at hne hsame
    exact ⟨hne,congrArg MacServer.mcast hsame⟩

/-- Only the primary flow is served exactly when the offset is one the search
finds or the request is refused anyhow. -/
theorem primary_only_iff (s : MacServer procs) (core : Fin procs) (i : Slot) (p : PortId)
    (c : MacCmd) (hp : (s.world.client core i).virtPort = p.val) (hfit : TablesFit s) :
    GuardHolds s core i p c ↔ Recognised s p c := by
  unfold GuardHolds Recognised
  by_cases hstored : Stored s p c.flowIdxOffset
  · refine iff_of_true (fun hno x => ?_) (Or.inl hstored)
    exact macHandlerCb_refused c (primaryStatus_stored hp hfit hstored hno)
  have hno : ¬ Primary s p c.flowIdxOffset := mt Primary.stored hstored
  by_cases hready : getHandle s.world.server = sok
  · by_cases hlater : LaterRefused s p c
    · exact iff_of_true (fun _ _ => macHandlerCb_of_laterRefused c hlater)
        (Or.inr (Or.inr hlater))
    · refine iff_of_false (fun h => ?_) (by simp [hstored,hready,hlater])
      exact macHandlerCb_goes c hlater
        (fun x hx => primaryStatus_unstored hp hready hstored hx) (h hno)
  · refine iff_of_true (fun _ x => macHandlerCb_refused c ?_) (Or.inr (Or.inl hready))
    unfold primaryStatus
    rw [if_neg hready]
    exact hready

end Guard

/-- A server with these receive flows, nothing registered and no multicast
address, in a build with VEPA. -/
def freshServer (w : World procs) : MacServer procs where
  world := w
  mcast := (McastFilter.init (McastFilter.zeroed (fun _ => none)
    (some (VepaClients.startUp 5#32).vepa.obj)) [] [] 0#32 0#32).2
  clients := (VepaClients.startUp 5#32).vepa.clients
  vlan := VlanJoinLeave.plainStart true
  dstMac := []
  ucast := fun _ => false
  portPolicer := fun _ => none

/-- A client whose primary flow has offset 4. -/
def primaryClient : MacServer 1 :=
  freshServer (ProxyServerRxFlows.serve false firstFlowPolicer 0 ⟨oneClient,[]⟩
    (.allocRx 2500#32 0#32 (flowAt 4#32))).world

theorem virtPortCfg_primaryClient : primaryClient.world.server.virtPortCfg =
    [setOffset twoFlows 0#32 4#32] := rfl

theorem tablesFit_primaryClient : TablesFit primaryClient := by
  intro c hc
  rw [virtPortCfg_primaryClient,List.mem_singleton] at hc
  subst hc
  decide

/-- The mark of the second flow, which is free, does not pass. -/
theorem primary_only_iff_freeMark :
    GuardHolds primaryClient 0 0 switchPort
      (.registerMac ⟨2#8,0#8,0#8,0#8,0#8,1#8⟩ 0#32 invalidFlowIdxOffset) := by
  refine (primary_only_iff primaryClient 0 0 switchPort _ rfl tablesFit_primaryClient).mpr ?_
  exact Or.inl ⟨setOffset twoFlows 0#32 4#32,rfl,by decide⟩

/-- An address is registered on a flow that the port does not have. -/
theorem unknown_offset_registers :
    ¬ GuardHolds primaryClient 0 0 switchPort
      (.registerMac ⟨2#8,0#8,0#8,0#8,0#8,1#8⟩ 0#32 9#32) := by
  intro h
  exact (h (by decide) (generousOutcomes 0#32 9#32)).1 (by decide)

end EthernetFirmware.ProxyServerMacFlows
