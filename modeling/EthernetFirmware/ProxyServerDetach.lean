import EthernetFirmware.GuardedRuns
import EthernetFirmware.McastOwnership
import EthernetFirmware.ProxyServerResources
import EthernetFirmware.VlanJoinLeave

/-!
# What a detach releases

The server with everything its clients acquire: resources, VLAN
memberships, multicast filters and IPv4 registrations. The tables of the
server do not say who acquired an entry, so books beside them record the
client of every resource, filter and registration that is still there.

The detach handler gives the core's reference back and clears the client
object, and does nothing else. A detach releases what its client holds
exactly when the client holds nothing, apart from resources that the
multi-client manager takes back with the last reference of the core.
-/

namespace EthernetFirmware.ProxyServerDetach

open BitMasks SlotTables GuardedRuns RemoteConfig ArpTable ProxyServerClients
  ProxyServerRequests ProxyServerIpv4 ProxyServerResources
open VlanTable (VlanObj)
open McastFilter (McastObj)

variable {procs : ℕ}

/-- The server, its tables and the books of what clients hold. -/
structure Proxy (procs : ℕ) where
  /-- Server and platform. -/
  world : World procs
  /-- VLAN table. -/
  vlan : VlanObj
  /-- Multicast tables. -/
  mcast : McastObj
  /-- Proxy ARP table. -/
  arp : Table
  /-- Client in whose name each allocated resource was allocated. -/
  held : List (Client procs × Resource)
  /-- Filter adds of each client that it has not deleted. -/
  filters : List (Client procs × MacAddr)
  /-- IPv4 addresses registered by each client and not deregistered. -/
  ipv4 : List (Client procs × U32)

/-- Requests of the clients, with the results of the external calls. A
port number outside the protocol is not checked before it is shifted; what
a VLAN or filter request of such a client leaves is an input as well. -/
inductive Event (procs : ℕ) where
  /-- A request about virtual ports; what the multi-client manager takes
  back if the request detaches the core. -/
  | port (e : ProxyServerRequests.Event procs) (chosen : Resource → Bool)
  /-- A request about resources. -/
  | resource (c : Client procs) (x : ResourceOutcomes) (cmd : ResourceCmd)
  /-- `ETHREMOTECFG_CMD_JOIN_VLAN`. -/
  | joinVlan (c : Client procs) (vlanId : U16) (macAddr : MacAddr) (ioctl : Status)
      (stray : Status × VlanObj)
  /-- `ETHREMOTECFG_CMD_LEAVE_VLAN`. -/
  | leaveVlan (c : Client procs) (vlanId : U16) (macAddr : MacAddr) (setup remove : Status)
      (stray : Status × VlanObj)
  /-- `ETHREMOTECFG_CMD_ADD_FILTER_MAC`; `stale` is in the flow index
  before it is looked up. -/
  | addFilterMac (c : Client procs) (macAddr : MacAddr) (vlanId : U16)
      (flowIdxOffset stale : U32) (x : McastFilter.AddOutcomes) (stray : Status × McastObj)
  /-- `ETHREMOTECFG_CMD_DEL_FILTER_MAC`. -/
  | delFilterMac (c : Client procs) (macAddr : MacAddr) (vlanId : U16)
      (y : McastFilter.DelOutcomes) (stray : Status × McastObj)
  /-- A request about IPv4 addresses. -/
  | ipv4 (c : Client procs) (cmd : Ipv4Cmd)
  /-- Another user of the VEPA object leaves it with this content. -/
  | vepaUse (vepa : VepaTable.VepaObj)

/-- The port number, if the protocol has it. -/
def toPortId (virtPort : U32) : Option PortId :=
  if h : isMacPort virtPort = true ∨ isSwitchPort virtPort = true then some ⟨virtPort,h⟩
  else none

/-- The address is in the filter's tables: shared with an add outstanding,
or exclusive. -/
def inFilter (o : McastObj) (macAddr : MacAddr) : Bool :=
  match McastFilter.getSharedMcastInfo o macAddr with
  | some i => (o.sharedMcast i).refCnt != 0#32
  | none => (McastFilter.getExclusiveMcastInfo o macAddr).isSome

/-- The server after a call into the VLAN table, whose VEPA table the
filter shares. -/
def Proxy.withVlan (s : Proxy procs) (o : VlanObj) : Proxy procs :=
  { s with
    vlan := o
    mcast := { s.mcast with vepa := s.mcast.vepa.map fun vepa =>
      { vepa with
        remoteCoreVepaTable := o.vepa.getD vepa.remoteCoreVepaTable } } }

/-- The server after a call into the filter. -/
def Proxy.withMcast (s : Proxy procs) (o : McastObj) : Proxy procs :=
  { s with
    mcast := o
    vlan := { s.vlan with vepa := o.vepa.map VepaTable.VepaObj.remoteCoreVepaTable } }

/-- The books of resources after a request of a client: resources no
longer allocated are struck, and new ones entered in the client's name. -/
def Proxy.book (s : Proxy procs) (c : Client procs) (w : World procs) : Proxy procs :=
  { s with
    world := w
    held := (s.held.filter fun h => allocated w.platform h.1.core h.2) ++
      (granted s.world.platform w.platform).map fun r => (c,r) }

/-- The books of filters after an add. -/
def Proxy.bookAdd (s : Proxy procs) (c : Client procs) (macAddr : MacAddr)
    (r : Status × McastObj) : Proxy procs :=
  { s.withMcast r.2 with
    filters := if r.1 = sok then (c,macAddr) :: s.filters else s.filters }

/-- The books of filters after a delete, which strikes one add of the
client, or every add when the address leaves the tables. -/
def Proxy.bookDel (s : Proxy procs) (c : Client procs) (macAddr : MacAddr)
    (r : Status × McastObj) : Proxy procs :=
  { s.withMcast r.2 with
    filters :=
      if r.1 = sok then
        if inFilter r.2 macAddr then s.filters.erase (c,macAddr)
        else s.filters.filter fun f => decide (f.2 ≠ macAddr)
      else s.filters }

section Handlers

variable (s : Proxy procs) (hClient : ClientObj)

/-- `CpswProxyServer_vlanJoinHandlerCb`. -/
def vlanJoinHandlerCb (vlanId : U16) (macAddr : MacAddr) (ioctl : Status)
    (stray : Status × VlanObj) : Status × VlanObj :=
  if getHandle s.world.server = sok then
    match toPortId hClient.virtPort with
    | some p => VlanTable.join s.vlan p vlanId macAddr ioctl
    | none => stray
  else (getHandle s.world.server,s.vlan)

/-- `CpswProxyServer_vlanLeaveHandlerCb`. -/
def vlanLeaveHandlerCb (vlanId : U16) (macAddr : MacAddr) (setup remove : Status)
    (stray : Status × VlanObj) : Status × VlanObj :=
  if getHandle s.world.server = sok then
    match toPortId hClient.virtPort with
    | some p => VlanTable.leave s.vlan p vlanId macAddr setup remove
    | none => stray
  else (getHandle s.world.server,s.vlan)

/-- `CpswProxyServer_filterAddMacHandlerCb`, with the look-ups it makes in
the server's other tables. -/
def filterAddMacHandlerCb (macAddr : MacAddr) (vlanId : U16) (flowIdxOffset stale : U32)
    (x : McastFilter.AddOutcomes) (stray : Status × McastObj) : Status × McastObj :=
  let relFlow :=
    if getHandle s.world.server = sok then
      getRelFlowIdx s.world.server hClient.virtPort flowIdxOffset stale
    else (getHandle s.world.server,stale)
  match toPortId hClient.virtPort with
  | some p => McastFilter.filterAddMacHandlerCb s.mcast p macAddr vlanId relFlow
      (VlanTable.isInVlan s.vlan p vlanId) x
  | none => stray

/-- `CpswProxyServer_filterDelMacHandlerCb`, likewise. -/
def filterDelMacHandlerCb (macAddr : MacAddr) (vlanId : U16) (y : McastFilter.DelOutcomes)
    (stray : Status × McastObj) : Status × McastObj :=
  if getHandle s.world.server = sok then
    match toPortId hClient.virtPort with
    | some p => McastFilter.filterDelMacHandlerCb s.mcast p macAddr vlanId
        (VlanTable.isInVlan s.vlan p vlanId) y
    | none => stray
  else (if macAddr.isMcast then getHandle s.world.server else ebadArgs,s.mcast)

end Handlers

/-- Serve a request of an attached client; one whose token names no client
is answered with an error. -/
def withClient (s : Proxy procs) (c : Client procs) (f : ClientObj → Proxy procs) :
    Proxy procs :=
  match getClient s.world c.core c.token with
  | some i => f (s.world.client c.core i)
  | none => s

/-- The world after a request about virtual ports: when the request
detaches its core from the multi-client manager, the manager takes the
chosen resources of the core back. -/
def servePort (w : World procs) (e : ProxyServerRequests.Event procs)
    (chosen : Resource → Bool) : World procs :=
  let w' := handle w e
  if McmCall.coreDetach e.request.remoteProcId ∈
      w'.platform.mcmCalls.drop w.platform.mcmCalls.length then
    freeResource w' e.request.remoteProcId chosen
  else w'

/-- The books of IPv4 addresses after a request. -/
def bookIpv4 (ipv4 : List (Client procs × U32)) (c : Client procs) (status : Status) :
    Ipv4Cmd → List (Client procs × U32)
  | .registerIpv4 _ ipAddr => if status = sok then (c,ipAddr) :: ipv4 else ipv4
  | .deregisterIpv4 ipAddr =>
    if status = sok then ipv4.filter fun f => decide (f.2 ≠ ipAddr) else ipv4

/-- State after an event. -/
def step (ismulticast : U32 → Bool) (s : Proxy procs) : Event procs → Proxy procs
  | .port e chosen =>
    s.book ⟨e.request.remoteProcId,(answer s.world e).token⟩ (servePort s.world e chosen)
  | .resource c x cmd => s.book c (resourceRequestHandler s.world x c cmd).world
  | .joinVlan c vlanId macAddr ioctl stray => withClient s c fun hClient =>
    s.withVlan (vlanJoinHandlerCb s hClient vlanId macAddr ioctl stray).2
  | .leaveVlan c vlanId macAddr setup remove stray => withClient s c fun hClient =>
    s.withVlan (vlanLeaveHandlerCb s hClient vlanId macAddr setup remove stray).2
  | .addFilterMac c macAddr vlanId flowIdxOffset stale x stray => withClient s c fun hClient =>
    s.bookAdd c macAddr
      (filterAddMacHandlerCb s hClient macAddr vlanId flowIdxOffset stale x stray)
  | .delFilterMac c macAddr vlanId y stray => withClient s c fun hClient =>
    s.bookDel c macAddr (filterDelMacHandlerCb s hClient macAddr vlanId y stray)
  | .ipv4 c cmd =>
    let r := ipv4RequestHandler ismulticast c ⟨s.world,s.arp⟩ cmd
    { s with arp := r.2.arp, ipv4 := bookIpv4 s.ipv4 c r.1 cmd }
  | .vepaUse vepa =>
    s.withMcast { s.mcast with vepa := s.mcast.vepa.map fun _ => vepa }

/-- An initialised server with empty books. The VLAN table and the filter
are whatever their configuration leaves. -/
def startUp (procs : ℕ) (csumOffloadEn : Bool) (virtPortCfg : List VirtPortCfg) (vlan : VlanObj)
    (mcast : McastObj) (arp : Table) : Proxy procs where
  world := initServer procs csumOffloadEn virtPortCfg
  vlan := { vlan with vepa := mcast.vepa.map VepaTable.VepaObj.remoteCoreVepaTable }
  mcast := mcast
  arp := (ArpTable.init true arp).2
  held := []
  filters := []
  ipv4 := []

/-- The client has the resource: it was allocated in the client's name, not
freed since, and is still allocated. -/
def Holds (s : Proxy procs) (c : Client procs) (r : Resource) : Prop :=
  (c,r) ∈ s.held ∧ allocated s.world.platform c.core r = true

/-- Some VLAN in the table has the virtual port active. -/
def ActiveSomewhere (o : VlanObj) (virtPort : U32) : Prop :=
  ∃ i, (o.vlan i).isFree = false ∧ isSet (o.vlan i).virtActiveMask virtPort.toNat = true

/-- A filter add of the client is outstanding. -/
def HasFilter (s : Proxy procs) (c : Client procs) (macAddr : MacAddr) : Prop :=
  (c,macAddr) ∈ s.filters ∧ inFilter s.mcast macAddr = true

/-- An IPv4 address registered by the client is in the ARP table. -/
def HasIpv4 (s : Proxy procs) (c : Client procs) (ipAddr : U32) : Prop :=
  (c,ipAddr) ∈ s.ipv4 ∧ getHwAddr s.arp ipAddr arpVlanId ≠ none

instance (s : Proxy procs) (c : Client procs) (r : Resource) : Decidable (Holds s c r) :=
  inferInstanceAs (Decidable (_ ∧ _))

instance (o : VlanObj) (virtPort : U32) : Decidable (ActiveSomewhere o virtPort) :=
  inferInstanceAs (Decidable (∃ _, _))

instance (s : Proxy procs) (c : Client procs) (a : MacAddr) : Decidable (HasFilter s c a) :=
  inferInstanceAs (Decidable (_ ∧ _))

instance (s : Proxy procs) (c : Client procs) (ip : U32) : Decidable (HasIpv4 s c ip) :=
  inferInstanceAs (Decidable (_ ∧ _))

/-- Nothing of a client on the virtual port remains. -/
structure Released (s : Proxy procs) (c : Client procs) (virtPort : U32) : Prop where
  /-- No resource. -/
  resources : ∀ r, ¬ Holds s c r
  /-- No VLAN membership. -/
  vlans : ¬ ActiveSomewhere s.vlan virtPort
  /-- No multicast filter. -/
  filters : ∀ a, ¬ HasFilter s c a
  /-- No ARP entry. -/
  ipv4 : ∀ ip, ¬ HasIpv4 s c ip

/-- Everything of the clients other than the one in a slot is unchanged. -/
structure OthersKept (s s' : Proxy procs) (c : Client procs) (i : Slot) : Prop where
  /-- Client objects. -/
  clients : ∀ core j, core ≠ c.core ∨ j ≠ i → s'.world.client core j = s.world.client core j
  /-- Resources of every other client. -/
  resources : ∀ d j, d ≠ c → getClient s.world d.core d.token = some j →
    ∀ r, Holds s' d r ↔ Holds s d r
  /-- Activity of every other virtual port. -/
  vlans : ∀ k p, p ≠ (s.world.client c.core i).virtPort →
    isSet (s'.vlan.vlan k).virtActiveMask p.toNat = isSet (s.vlan.vlan k).virtActiveMask p.toNat
  /-- Filters of every other client. -/
  filters : ∀ d, d ≠ c → ∀ a, HasFilter s' d a ↔ HasFilter s d a
  /-- ARP entries of every other client. -/
  ipv4 : ∀ d, d ≠ c → ∀ ip, HasIpv4 s' d ip ↔ HasIpv4 s d ip

/-- The event is a detach of the client, whose token names the slot. -/
structure Detaches (s : Proxy procs) (e : Event procs) (c : Client procs) (i : Slot)
    (chosen : Resource → Bool) : Prop where
  /-- The request is a detach with the client's token from its core. -/
  request : ∃ ev, e = .port ev chosen ∧ ev.request.cmd = .detach ∧
    ev.request.remoteProcId = c.core ∧ ev.request.token = c.token ∧
    (answer s.world ev).status = sok
  /-- The token names the slot. -/
  client : getClient s.world c.core c.token = some i

/-- A successful detach releases everything its client held and leaves the
other clients alone. -/
def DetachReleases (ismulticast : U32 → Bool) (s : Proxy procs) (e : Event procs) : Prop :=
  ∀ c i chosen, Detaches s e c i chosen →
    Released (step ismulticast s e) c (s.world.client c.core i).virtPort ∧
      OthersKept s (step ismulticast s e) c i

/-- The client holds nothing when it detaches, but for resources that the
multi-client manager takes back because the reference is the core's last. -/
def HoldsNothing (s : Proxy procs) (e : Event procs) : Prop :=
  ∀ c i chosen, Detaches s e c i chosen →
    (∀ r, Holds s c r → s.world.refCnt c.core = 1 ∧ chosen r = true) ∧
    ¬ ActiveSomewhere s.vlan (s.world.client c.core i).virtPort ∧
    (∀ a, ¬ HasFilter s c a) ∧ ∀ ip, ¬ HasIpv4 s c ip

/-- What every run keeps: the server is ready, and the references of a core
are its slots in use. -/
structure SlotsCounted (w : World procs) : Prop where
  /-- The server is ready. -/
  ready : Ready w
  /-- References and slots agree. -/
  refs : ∀ core, w.refCnt core = slotCount ClientObj.inUse (w.client core)

/-- Every allocated resource is in the books of a client of its core. -/
def Named (s : Proxy procs) : Prop :=
  ∀ core r, allocated s.world.platform core r = true → ∃ token, (⟨core,token⟩,r) ∈ s.held

section World

variable {w w' : World procs}

/-- A step that keeps the slots keeps their count. -/
theorem SlotsCounted.of_keepsSlots (h : SlotsCounted w) (hk : KeepsSlots w w') :
    SlotsCounted w' := by
  refine ⟨⟨hk.initDone.trans h.ready.1,hk.hMcmCmdIf.trans h.ready.2⟩,fun core => ?_⟩
  rw [hk.refCnt,h.refs]
  unfold slotCount passing
  simp only [hk.inUse]

theorem slotsCounted_initServer (csum : Bool) (cfg : List VirtPortCfg) :
    SlotsCounted (initServer procs csum cfg) := by
  refine ⟨ready_initServer csum cfg,fun core => ?_⟩
  rw [refCnt_initServer,slotCount_eq_zero_iff.mpr fun i => rfl]
  rfl

/-- Requests about virtual ports keep the count: an attach takes a slot and
a reference, a detach gives one of each back. -/
theorem slotsCounted_handle (e : ProxyServerRequests.Event procs) (h : SlotsCounted w) :
    SlotsCounted (handle w e) := by
  refine ⟨ready_handle h.ready,fun core => ?_⟩
  rcases request_cases e.outcomes e.request h.ready with
    ⟨v,ext,i,-,-,ha⟩ | ⟨i,-,hg,-,hd⟩ | ⟨hq,-,-⟩
  · by_cases hcore : core = e.request.remoteProcId
    · subst hcore
      have hgain := slotCount_update_gain ha.wasFree ha.inUse
      rw [← ha.table] at hgain
      rw [handle,ha.refCnt,if_pos rfl,h.refs,hgain]
      exact (Nat.cast_succ _).symm
    · rw [handle,ha.refCnt,if_neg hcore,ha.others core hcore,h.refs]
  · by_cases hcore : core = e.request.remoteProcId
    · subst hcore
      have hloss := slotCount_update_loss (p := ClientObj.inUse) (b := ClientObj.free)
        (getClient_eq_some hg).1 rfl
      rw [← hd.table] at hloss
      rw [handle,hd.refCnt,if_pos rfl,h.refs,← hloss]
      omega
    · rw [handle,hd.refCnt,if_neg hcore,hd.others core hcore,h.refs]
  · have hkeep : KeepsSlots w (handle w e) :=
      ⟨fun core j => by rw [handle,hq.client],hq.refCnt,hq.initDone,hq.hMcmCmdIf⟩
    exact (h.of_keepsSlots hkeep).refs core

/-- When a request about virtual ports detaches its core: it is a detach
that resolves and gives the last reference back. -/
theorem servePort_cases (hw : Ready w) (e : ProxyServerRequests.Event procs)
    (chosen : Resource → Bool) :
    ((∀ i, e.request.cmd = .detach →
        getClient w e.request.remoteProcId e.request.token = some i →
        w.refCnt e.request.remoteProcId ≠ 1) ∧ servePort w e chosen = handle w e) ∨
    (∃ i, e.request.cmd = .detach ∧
      getClient w e.request.remoteProcId e.request.token = some i ∧
      w.refCnt e.request.remoteProcId = 1 ∧
      servePort w e chosen = freeResource (handle w e) e.request.remoteProcId chosen) := by
  unfold servePort
  dsimp only
  rcases request_cases e.outcomes e.request hw with
    ⟨v,ext,i,hcmd,-,ha⟩ | ⟨i,hcmd,hg,-,hd⟩ | ⟨hq,-,hdet⟩
  · left
    constructor
    · intro i hdetach
      rw [hdetach] at hcmd
      simp [Cmd.attachPort] at hcmd
    · rw [if_neg]
      rw [handle,ha.mcmCalls]
      split <;> simp
  · by_cases hlast : w.refCnt e.request.remoteProcId = 1
    · refine Or.inr ⟨i,hcmd,hg,hlast,if_pos ?_⟩
      rw [handle,hd.mcmCalls,if_pos hlast]
      simp
    · refine Or.inl ⟨fun _ _ _ => hlast,if_neg ?_⟩
      rw [handle,hd.mcmCalls,if_neg hlast]
      simp
  · left
    constructor
    · intro i hdetach hg
      rw [(hdet hdetach).1] at hg
      contradiction
    · rw [if_neg]
      rw [handle,hq.platform]
      simp

theorem client_servePort (hw : Ready w) (e : ProxyServerRequests.Event procs)
    (chosen : Resource → Bool) (core : Fin procs) :
    (servePort w e chosen).client core = (handle w e).client core := by
  rcases servePort_cases hw e chosen with ⟨-,heq⟩ | ⟨-,-,-,-,heq⟩
  · rw [heq]
  · rw [heq]
    rfl

section Resolved

variable {e : ProxyServerRequests.Event procs} {i : Slot} (chosen : Resource → Bool)

/-- What cores still have after a detach that resolves. -/
theorem allocated_servePort_iff (hw : Ready w) (hcmd : e.request.cmd = .detach)
    (hg : getClient w e.request.remoteProcId e.request.token = some i) {core : Fin procs}
    {r : Resource} : allocated (servePort w e chosen).platform core r = true ↔
      allocated w.platform core r = true ∧ ¬ (w.refCnt e.request.remoteProcId = 1 ∧
        core = e.request.remoteProcId ∧ chosen r = true) := by
  have hlists := sameLists_detach hw hcmd hg
  rcases servePort_cases hw e chosen with ⟨hmore,heq⟩ | ⟨-,-,-,hlast,heq⟩
  · rw [heq,hlists.allocated]
    exact (and_iff_left fun h => hmore i hcmd hg h.1).symm
  · rw [heq,freeResource,allocated_takeBack_iff,hlists.allocated]
    simp [hlast]

theorem granted_servePort (hw : Ready w) (hcmd : e.request.cmd = .detach)
    (hg : getClient w e.request.remoteProcId e.request.token = some i) :
    granted w.platform (servePort w e chosen).platform = [] := by
  have hlists := sameLists_detach hw hcmd hg
  rcases servePort_cases hw e chosen with ⟨-,heq⟩ | ⟨-,-,-,-,heq⟩
  · rw [heq,hlists.granted]
  · rw [heq]
    exact hlists.granted_takeBack

end Resolved

theorem slotsCounted_servePort (e : ProxyServerRequests.Event procs) (chosen : Resource → Bool)
    (h : SlotsCounted w) : SlotsCounted (servePort w e chosen) := by
  have hh := slotsCounted_handle e h
  rcases servePort_cases h.ready e chosen with ⟨-,heq⟩ | ⟨-,-,-,-,heq⟩
  · rw [heq]
    exact hh
  · rw [heq]
    exact hh.of_keepsSlots ⟨fun _ _ => rfl,fun _ => rfl,rfl,rfl⟩

end World

/-- What a state has, and every state its clients' requests lead to, is kept
by serving a request. -/
theorem withClient_keeps {P : Proxy procs → Prop} {s : Proxy procs} {c : Client procs}
    {f : ClientObj → Proxy procs} (h : P s) (hf : ∀ o, P (f o)) : P (withClient s c f) := by
  unfold withClient
  split
  · exact hf _
  · exact h

/-- Every event keeps the count. -/
theorem slotsCounted_step (ismulticast : U32 → Bool) (s : Proxy procs) (e : Event procs)
    (h : SlotsCounted s.world) : SlotsCounted (step ismulticast s e).world := by
  cases e with
  | port e chosen => exact slotsCounted_servePort e chosen h
  | resource c x cmd => exact h.of_keepsSlots (resourceRequest_effect s.world x c cmd).slots
  | joinVlan | leaveVlan | addFilterMac | delFilterMac =>
    exact withClient_keeps (P := fun s => SlotsCounted s.world) h fun _ => h
  | ipv4 c cmd => exact h
  | vepaUse vepa => exact h

section Books

variable {s : Proxy procs} {c d : Client procs} {w : World procs} {r : Resource}

/-- The books after a request that granted nothing: what is still
allocated. -/
theorem holds_book_iff (hg : granted s.world.platform w.platform = []) :
    Holds (s.book c w) d r ↔ (d,r) ∈ s.held ∧ allocated w.platform d.core r = true := by
  unfold Holds Proxy.book
  dsimp only
  rw [hg,List.map_nil,List.append_nil,List.mem_filter,and_assoc,and_self_iff]

/-- The books stay complete when the manager gives more to the client's
core or only takes back. -/
theorem named_book (h : Named s)
    (hp : ∀ core r, allocated w.platform core r = true →
      allocated s.world.platform core r = true ∨
        core = c.core ∧ r ∈ granted s.world.platform w.platform) : Named (s.book c w) := by
  intro core r hr
  rcases hp core r hr with hold | ⟨rfl,hnew⟩
  · obtain ⟨token,hmem⟩ := h core r hold
    exact ⟨token,List.mem_append_left _ (List.mem_filter.mpr ⟨hmem,hr⟩)⟩
  · exact ⟨c.token,List.mem_append_right _ (List.mem_map.mpr ⟨r,hnew,rfl⟩)⟩

end Books

/-- Every event keeps the books of resources complete. -/
theorem named_step (ismulticast : U32 → Bool) (s : Proxy procs) (e : Event procs)
    (hs : SlotsCounted s.world) (h : Named s) : Named (step ismulticast s e) := by
  cases e with
  | port e chosen =>
    refine named_book h fun core r hr => ?_
    rcases servePort_cases hs.ready e chosen with ⟨-,heq⟩ | ⟨i,hcmd,hg,-,heq⟩
    · rw [heq] at hr ⊢
      exact (grows_handle e hs.ready).allocated_cases hr
    · rw [heq] at hr
      have hold := (allocated_takeBack_iff.mp hr).1
      rw [(sameLists_detach hs.ready hcmd hg).allocated] at hold
      exact Or.inl hold
  | resource c x cmd =>
    refine named_book h fun core r hr => ?_
    rcases (resourceRequest_effect s.world x c cmd).platform with hgrow | ⟨chosen,htake⟩
    · exact hgrow.allocated_cases hr
    · rw [htake] at hr
      exact Or.inl (allocated_takeBack_iff.mp hr).1
  | joinVlan | leaveVlan | addFilterMac | delFilterMac => exact withClient_keeps h fun _ => h
  | ipv4 c cmd => exact h
  | vepaUse vepa => exact h

/-- Everything a detach does to the clients' holdings. -/
structure DetachStep (s s' : Proxy procs) (c : Client procs) (i : Slot)
    (chosen : Resource → Bool) : Prop where
  /-- Other slots. -/
  clients : ∀ core j, core ≠ c.core ∨ j ≠ i → s'.world.client core j = s.world.client core j
  /-- Resources: the manager takes some of the core's back with the last
  reference. -/
  resources : ∀ d r, Holds s' d r ↔
    Holds s d r ∧ ¬ (s.world.refCnt c.core = 1 ∧ d.core = c.core ∧ chosen r = true)
  /-- The VLAN table. -/
  vlan : s'.vlan = s.vlan
  /-- Filters of all clients. -/
  filters : ∀ d a, HasFilter s' d a ↔ HasFilter s d a
  /-- ARP entries of all clients. -/
  ipv4 : ∀ d ip, HasIpv4 s' d ip ↔ HasIpv4 s d ip

section Detach

variable {s s' : Proxy procs} {e : Event procs} {c : Client procs} {i : Slot}
  {chosen : Resource → Bool}

/-- A detach touches the client's slot and, with the last reference of the
core, the resource manager. -/
theorem detach_step (ismulticast : U32 → Bool) (hs : SlotsCounted s.world)
    (hd : Detaches s e c i chosen) : DetachStep s (step ismulticast s e) c i chosen := by
  obtain ⟨⟨ev,rfl,hcmd,hcore,htoken,-⟩,hg⟩ := hd
  rw [← hcore,← htoken] at hg
  refine ⟨?_,?_,rfl,fun _ _ => Iff.rfl,fun _ _ => Iff.rfl⟩
  · intro core j hne
    have heff := (detach_effect (x := ev.outcomes) hs.ready hcmd hg).1
    change (servePort s.world ev chosen).client core j = _
    rw [client_servePort hs.ready]
    by_cases hc : core = c.core
    · have hj : j ≠ i := hne.resolve_left fun h => h hc
      rw [handle,hc,← hcore,heff.table,Function.update_of_ne hj]
    · rw [handle,heff.others core (hcore.symm ▸ hc)]
  · intro d r
    change Holds (s.book _ (servePort s.world ev chosen)) d r ↔ _
    rw [holds_book_iff (granted_servePort chosen hs.ready hcmd hg),
      allocated_servePort_iff chosen hs.ready hcmd hg,hcore,Holds,and_assoc]

/-- Another client of the core has a slot of its own, so the reference given
back is not the last. -/
theorem not_last_of_other (hs : SlotsCounted s.world)
    (hg : getClient s.world c.core c.token = some i) {d : Client procs} {j : Slot}
    (hne : d ≠ c) (hd : getClient s.world d.core d.token = some j) (hcore : d.core = c.core) :
    s.world.refCnt c.core ≠ 1 := by
  intro hlast
  rw [hcore] at hd
  rw [hs.refs,Nat.cast_eq_one] at hlast
  obtain rfl : i = j :=
    eq_of_slotCount_eq_one hlast (getClient_eq_some hg).1 (getClient_eq_some hd).1
  have htoken : d.token = c.token :=
    (getClient_eq_some hd).2.symm.trans (getClient_eq_some hg).2
  exact hne (Client.ext hcore htoken)

/-- No detach touches what other clients hold. -/
theorem othersKept_of_detach (hs : SlotsCounted s.world)
    (hg : getClient s.world c.core c.token = some i) (h : DetachStep s s' c i chosen) :
    OthersKept s s' c i := by
  refine ⟨h.clients,?_,fun k p _ => by rw [h.vlan],fun d _ a => h.filters d a,
    fun d _ ip => h.ipv4 d ip⟩
  intro d j hne hd r
  rw [h.resources]
  refine and_iff_left ?_
  rintro ⟨hlast,hcore,-⟩
  exact not_last_of_other hs hg hne hd hcore hlast

/-- A detach releases what the client holds exactly when there is nothing
but what the multi-client manager takes back. -/
theorem released_iff (h : DetachStep s s' c i chosen) {virtPort : U32} :
    Released s' c virtPort ↔
      (∀ r, Holds s c r → s.world.refCnt c.core = 1 ∧ chosen r = true) ∧
      ¬ ActiveSomewhere s.vlan virtPort ∧ (∀ a, ¬ HasFilter s c a) ∧
      ∀ ip, ¬ HasIpv4 s c ip := by
  have hres : (∀ r, ¬ Holds s' c r) ↔
      ∀ r, Holds s c r → s.world.refCnt c.core = 1 ∧ chosen r = true := by
    refine forall_congr' fun r => ?_
    rw [h.resources]
    simp
  constructor
  · rintro ⟨hr,hv,hf,hi⟩
    rw [h.vlan] at hv
    exact ⟨hres.mp hr,hv,fun a ha => hf a ((h.filters c a).mpr ha),
      fun ip hip => hi ip ((h.ipv4 c ip).mpr hip)⟩
  · rintro ⟨hr,hv,hf,hi⟩
    exact ⟨hres.mpr hr,by rwa [h.vlan],fun a ha => hf a ((h.filters c a).mp ha),
      fun ip hip => hi ip ((h.ipv4 c ip).mp hip)⟩

end Detach

section Reachable

variable (ismulticast : U32 → Bool) (csum : Bool) (cfg : List VirtPortCfg) (vlan : VlanObj)
  (mcast : McastObj) (arp : Table) (events : List (Event procs))

/-- In every reachable state the references of a core are its slots in use. -/
theorem slotsCounted_reachable :
    SlotsCounted (run (step ismulticast) (startUp procs csum cfg vlan mcast arp) events).world :=
  run_invariant (I := fun s => SlotsCounted s.world)
    (fun s e h => slotsCounted_step ismulticast s e h) (slotsCounted_initServer csum cfg) events

/-- In every reachable state the books name a client of its core for every
allocated resource. -/
theorem named_reachable :
    Named (run (step ismulticast) (startUp procs csum cfg vlan mcast arp) events) := by
  have hstart : Named (startUp procs csum cfg vlan mcast arp) := by
    intro core r hr
    cases r <;> simp [startUp,initServer,allocated] at hr
  refine And.right (run_invariant (I := fun s => SlotsCounted s.world ∧ Named s) ?_
    ⟨slotsCounted_initServer csum cfg,hstart⟩ events)
  exact fun s e h => ⟨slotsCounted_step ismulticast s e h.1,named_step ismulticast s e h.1 h.2⟩

/-- In every state a server reaches, a detach releases everything of its
client exactly when the client holds nothing by then, apart from resources
that the multi-client manager takes back with the core's last reference.
Other clients are left alone either way. -/
theorem detach_releases_iff (e : Event procs) :
    DetachReleases ismulticast
        (run (step ismulticast) (startUp procs csum cfg vlan mcast arp) events) e ↔
      HoldsNothing (run (step ismulticast) (startUp procs csum cfg vlan mcast arp) events) e := by
  have hs := slotsCounted_reachable ismulticast csum cfg vlan mcast arp events
  unfold DetachReleases HoldsNothing
  refine forall_congr' fun c => forall_congr' fun i => forall_congr' fun chosen =>
    forall_congr' fun hd => ?_
  have hstep := detach_step ismulticast hs hd
  rw [released_iff hstep]
  exact and_iff_left (othersKept_of_detach hs hd.client hstep)

end Reachable

/-- A request of the only core about virtual ports, on a driver whose
multi-client manager takes everything back with the last reference. -/
def portRequest (token : U32) (cmd : Cmd) : Event 1 :=
  .port ⟨plainOutcomes fun _ => 1518#32,⟨⟨0,Nat.one_pos⟩,100#32,0#8,token,0#32,cmd⟩⟩
    fun _ => true

/-- The client on port 25 attaches with its resources, joins a VLAN, adds a
multicast filter and registers an IPv4 address, while the same core has
port 26 attached as well. -/
def busyClient : Proxy 1 :=
  run (step classD)
    (startUp 1 false [] (VlanJoinLeave.plainStart true) McastOwnership.oneShared.obj
      fun _ => ⟨0#32,MacAddr.bcast,0#16,true⟩)
    [portRequest 0#32 (.attachExt 25#32),portRequest 0#32 (.attach 26#32),
      .joinVlan (clientOn 25#32) 100#16 VlanJoinLeave.clientAddr sok
        (efail,VlanJoinLeave.plainStart true),
      .addFilterMac (clientOn 25#32) McastOwnership.groupAddr 0#16 4#32 0#32 ⟨sok,sok,sok⟩
        (efail,McastOwnership.oneShared.obj),
      .ipv4 (clientOn 25#32) (.registerIpv4 VlanJoinLeave.clientAddr 0x0100000A#32)]

/-- The detach of the client on port 25. -/
def detachBusy : Event 1 := portRequest (virtPort2Token 25#32) .detach

/-- The detach succeeds and everything the client acquired remains. -/
theorem detach_keeps_holdings :
    ¬ DetachReleases classD busyClient detachBusy ∧
      Holds (step classD busyClient detachBusy) (clientOn 25#32) (.rxFlow 0#32 4#32) ∧
      Holds (step classD busyClient detachBusy) (clientOn 25#32) (.txCh 0xCA01#32) ∧
      Holds (step classD busyClient detachBusy) (clientOn 25#32)
        (.mac ⟨0x70#8,0xFF#8,0x76#8,0x1D#8,0x92#8,0xC1#8⟩) ∧
      ActiveSomewhere (step classD busyClient detachBusy).vlan 25#32 ∧
      HasFilter (step classD busyClient detachBusy) (clientOn 25#32) McastOwnership.groupAddr ∧
      HasIpv4 (step classD busyClient detachBusy) (clientOn 25#32) 0x0100000A#32 := by
  have hflow : Holds (step classD busyClient detachBusy) (clientOn 25#32)
      (.rxFlow 0#32 4#32) := by decide +kernel
  refine ⟨fun h => ?_,hflow,by decide +kernel,by decide +kernel,by decide +kernel,
    by decide +kernel,by decide +kernel⟩
  have hdetach : Detaches busyClient detachBusy (clientOn 25#32) 0 fun _ => true :=
    ⟨⟨_,rfl,rfl,rfl,rfl,by decide +kernel⟩,by decide +kernel⟩
  exact (h _ _ _ hdetach).1.resources _ hflow

end EthernetFirmware.ProxyServerDetach
