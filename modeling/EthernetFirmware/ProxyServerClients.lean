import EthernetFirmware.SlotTables
import EthernetFirmware.RemoteConfig

/-!
# Client table of the server proxy

The server object keeps, for every remote core, a reference count, the
driver information of the core's attach and a small table of client
objects. A client object is taken first-free, found by the token it
carries, and cleared when it is freed. The platform side records what the
multi-client manager and the resource manager hold for the cores.

The number of cores is a parameter because it differs between devices.
The feature, flow and channel words of a client object are stored as the
requests write them.
-/

namespace EthernetFirmware.ProxyServerClients

open Function SlotTables BitMasks RemoteConfig

/-- Number of transmit priorities, `ENET_PRI_NUM`. -/
abbrev enetPriNum : ℕ := 8

/-- Client slots of one core, `CPSWPROXYSERVER_VIRTPORT_PER_CLIENT_MAX`. -/
abbrev virtportPerClientMax : ℕ := 2

/-- Index of a client object within its core. -/
abbrev Slot := Fin virtportPerClientMax

/-- `EnetPer_AttachCoreOutArgs`. -/
structure AttachInfo where
  /-- Key identifying the core in driver calls. -/
  coreKey : U32
  /-- Receive unit. -/
  rxMtu : U32
  /-- Transmit unit of each priority. -/
  txMtu : Fin enetPriNum → U32
  deriving DecidableEq

/-- Transmit unit of the first priority. -/
def AttachInfo.firstTxMtu (a : AttachInfo) : U32 := a.txMtu 0

/-- Every priority has the transmit unit of the first one. -/
def AttachInfo.uniformTxMtu (a : AttachInfo) : Bool :=
  decide (∀ i, a.txMtu i = a.firstTxMtu)

/-- `CpswProxyServer_ClientObj`. -/
structure ClientObj where
  /-- Whether the object is grabbed by a remote client. -/
  inUse : Bool
  /-- Token given to the remote client. -/
  token : U32
  /-- Virtual port id. -/
  virtPort : U32
  /-- Remote core id. -/
  coreId : ℕ
  /-- Client id. -/
  clientId : U32
  /-- Features supported by the virtual port. -/
  features : U32
  /-- Allocated flow index base. -/
  flowIdxBase : U32
  /-- Allocated flow index offset. -/
  flowIdxOffset : U32
  /-- Transmit peer destination thread. -/
  psilDstId : U32
  /-- Allocated MAC address. -/
  macAddr : MacAddr
  /-- Endpoint of the remote client. -/
  remoteEp : U32
  /-- Whether the client has finished its teardown. -/
  isIdle : Bool
  /-- VLAN check count. -/
  vlanRefCnt : U32
  deriving DecidableEq

/-- The all-zero client object. -/
def ClientObj.zero : ClientObj where
  inUse := false
  token := 0#32
  virtPort := 0#32
  coreId := 0
  clientId := 0#32
  features := 0#32
  flowIdxBase := 0#32
  flowIdxOffset := 0#32
  psilDstId := 0#32
  macAddr := ⟨0#8,0#8,0#8,0#8,0#8,0#8⟩
  remoteEp := 0#32
  isIdle := false
  vlanRefCnt := 0#32

/-- What a freed client object holds: zeros and the reserved token. -/
def ClientObj.free : ClientObj := { ClientObj.zero with token := tokenNone }

/-- In use with a valid token, the test of the attached-client count. -/
def ClientObj.attached (c : ClientObj) : Bool := c.inUse && c.token != tokenNone

/-- `CpswProxyServer_RemoteCoreObj`. -/
structure RemoteCoreObj where
  /-- Reference count of the core. -/
  rmRefCnt : Int
  /-- Driver information of the core's attach. -/
  attachInfo : AttachInfo
  /-- Client objects of the core. -/
  clientObj : Slot → ClientObj

/-- `EthFwVirtPort_VirtPortCfg`. -/
structure VirtPortCfg where
  /-- Virtual port id. -/
  portId : PortId
  /-- Core the port is assigned to. -/
  remoteCoreId : ℕ
  /-- Number of transmit channels of the port. -/
  numTxCh : U32
  /-- Number of receive flows of the port. -/
  numRxFlow : U32
  /-- Flow index offset of each receive flow. -/
  rxFlowIdxOffset : List U32
  /-- Client identities that may use the port. -/
  clientIdMask : U32
  deriving DecidableEq

/-- `CpswProxyServer_Obj`. -/
structure Server (procs : ℕ) where
  /-- Set once the server has been initialised. -/
  initDone : Bool
  /-- Whether the multi-client manager's command interface is present. -/
  hMcmCmdIf : Bool
  /-- Whether checksum offload is enabled. -/
  csumOffloadEn : Bool
  /-- Virtual port configurations. -/
  virtPortCfg : List VirtPortCfg
  /-- Remote core objects. -/
  coreObj : Fin procs → RemoteCoreObj

/-- Calls into the multi-client manager. -/
inductive McmCall (procs : ℕ) where
  /-- `EnetMcm_coreAttach`. -/
  | coreAttach (core : Fin procs)
  /-- `EnetMcm_coreDetach`. -/
  | coreDetach (core : Fin procs)
  deriving DecidableEq

/-- What the driver side holds for the cores. -/
structure Platform (procs : ℕ) where
  /-- Cores attached to the multi-client manager. -/
  attached : Fin procs → Bool
  /-- Calls made to the multi-client manager, oldest first. -/
  mcmCalls : List (McmCall procs)
  /-- Receive flows allocated to cores. -/
  rxFlows : List (Fin procs × U32 × U32)
  /-- Transmit channels allocated to cores. -/
  txChs : List (Fin procs × U32)
  /-- MAC addresses allocated to cores. -/
  macs : List (Fin procs × MacAddr)

/-- The server object together with the platform it drives. -/
structure World (procs : ℕ) where
  /-- Server object. -/
  server : Server procs
  /-- Driver side. -/
  platform : Platform procs

variable {procs : ℕ}

/-- Client object of a core's slot. -/
def World.client (w : World procs) (core : Fin procs) (i : Slot) : ClientObj :=
  (w.server.coreObj core).clientObj i

/-- Reference count of a core. -/
def World.refCnt (w : World procs) (core : Fin procs) : Int :=
  (w.server.coreObj core).rmRefCnt

/-- Stored driver information of a core. -/
def World.attachInfo (w : World procs) (core : Fin procs) : AttachInfo :=
  (w.server.coreObj core).attachInfo

/-- Rewrite one client object. -/
def World.modifyClient (w : World procs) (core : Fin procs) (i : Slot)
    (f : ClientObj → ClientObj) : World procs :=
  { w with server := { w.server with
      coreObj := update w.server.coreObj core
        { w.server.coreObj core with
            clientObj := update (w.server.coreObj core).clientObj i (f (w.client core i)) } } }

/-- Rewrite the reference count of a core. -/
def World.modifyRefCnt (w : World procs) (core : Fin procs) (f : Int → Int) : World procs :=
  { w with server := { w.server with
      coreObj := update w.server.coreObj core
        { w.server.coreObj core with rmRefCnt := f (w.refCnt core) } } }

/-- Store the driver information of a core. -/
def World.storeAttachInfo (w : World procs) (core : Fin procs) (a : AttachInfo) :
    World procs :=
  { w with server := { w.server with
      coreObj := update w.server.coreObj core
        { w.server.coreObj core with attachInfo := a } } }

/-- `CpswProxyServer_getHandle`. -/
def getHandle (s : Server procs) : Status := if s.initDone then sok else ebusy

/-- `CpswProxyServer_allocClient`: the first free slot, marked in use with
the reserved token. The remaining fields keep their old values. -/
def allocClient (w : World procs) (core : Fin procs) (remoteEp virtPort : U32) :
    Option (Slot × World procs) :=
  match firstSlot (fun c => !c.inUse) (w.client core) with
  | some i => some (i,w.modifyClient core i fun c =>
      { c with inUse := true, virtPort := virtPort, token := tokenNone,
               remoteEp := remoteEp, isIdle := false, vlanRefCnt := 0#32 })
  | none => none

/-- `CpswProxyServer_freeClient`. -/
def freeClient (w : World procs) (core : Fin procs) (i : Slot) : World procs :=
  if getHandle w.server = sok then w.modifyClient core i fun _ => ClientObj.free else w

/-- `CpswProxyServer_getClient`: the first in-use slot that carries the
token. -/
def getClient (w : World procs) (core : Fin procs) (token : U32) : Option Slot :=
  firstSlot (fun c => c.inUse && c.token == token) (w.client core)

/-- `CPSWPROXY_VIRTPORT_2_TOKEN`. -/
def virtPort2Token (virtPort : U32) : U32 := virtPort * 100#32

/-- The server as `CpswProxyServer_init` leaves it, on a platform that has
given nothing to a core: the core objects are cleared and the command
interface is present. -/
def initServer (procs : ℕ) (csumOffloadEn : Bool) (virtPortCfg : List VirtPortCfg) :
    World procs where
  server :=
    { initDone := true
      hMcmCmdIf := true
      csumOffloadEn := csumOffloadEn
      virtPortCfg := virtPortCfg
      coreObj := fun _ => ⟨0,⟨0#32,0#32,fun _ => 0#32⟩,fun _ => ClientObj.zero⟩ }
  platform := ⟨fun _ => false,[],[],[],[]⟩

/-- Attached clients of a core: in-use slots with a valid token. -/
def World.attachedCnt (w : World procs) (core : Fin procs) : ℕ :=
  slotCount ClientObj.attached (w.client core)

/-- A core still has a client slot to give. -/
def World.hasFreeSlot (w : World procs) (core : Fin procs) : Prop :=
  ∃ i, (w.client core i).inUse = false

instance (w : World procs) (core : Fin procs) : Decidable (w.hasFreeSlot core) :=
  inferInstanceAs (Decidable (∃ _, _))

/-- The part of a configuration entry that assigns the port. -/
def assignment (c : VirtPortCfg) : U32 × ℕ × U32 :=
  (c.portId.val,c.remoteCoreId,c.clientIdMask)

/-- Port assignments of the server, in configuration order. -/
def World.assignments (w : World procs) : List (U32 × ℕ × U32) :=
  w.server.virtPortCfg.map assignment

section Rewriting

variable (w : World procs) (core core' : Fin procs) (i j : Slot)

theorem client_modifyClient (f : ClientObj → ClientObj) :
    (w.modifyClient core i f).client core' j =
      if core' = core ∧ j = i then f (w.client core i) else w.client core' j := by
  unfold World.modifyClient World.client
  by_cases hc : core' = core
  · subst hc
    by_cases hj : j = i
    · subst hj
      simp
    · simp [hj]
  · simp [hc]

@[simp] theorem client_modifyClient_self (f : ClientObj → ClientObj) :
    (w.modifyClient core i f).client core i = f (w.client core i) := by
  simp [client_modifyClient]

/-- The table of a core after one of its slots was rewritten. -/
theorem client_modifyClient_core (f : ClientObj → ClientObj) :
    (w.modifyClient core i f).client core =
      update (w.client core) i (f (w.client core i)) := by
  ext j
  by_cases hj : j = i
  · subst hj
    simp
  · simp [client_modifyClient,hj]

variable {core core' i j} in
theorem client_modifyClient_of_ne (f : ClientObj → ClientObj)
    (h : core' ≠ core ∨ j ≠ i) :
    (w.modifyClient core i f).client core' j = w.client core' j := by
  rw [client_modifyClient,if_neg]
  rintro ⟨hc,hj⟩
  rcases h with h | h
  · exact h hc
  · exact h hj

@[simp] theorem refCnt_modifyClient (f : ClientObj → ClientObj) :
    (w.modifyClient core i f).refCnt core' = w.refCnt core' := by
  by_cases hc : core' = core <;> simp [World.modifyClient,World.refCnt,hc]

@[simp] theorem attachInfo_modifyClient (f : ClientObj → ClientObj) :
    (w.modifyClient core i f).attachInfo core' = w.attachInfo core' := by
  by_cases hc : core' = core <;> simp [World.modifyClient,World.attachInfo,hc]

@[simp] theorem initDone_modifyClient (f : ClientObj → ClientObj) :
    (w.modifyClient core i f).server.initDone = w.server.initDone := rfl

@[simp] theorem hMcmCmdIf_modifyClient (f : ClientObj → ClientObj) :
    (w.modifyClient core i f).server.hMcmCmdIf = w.server.hMcmCmdIf := rfl

@[simp] theorem virtPortCfg_modifyClient (f : ClientObj → ClientObj) :
    (w.modifyClient core i f).server.virtPortCfg = w.server.virtPortCfg := rfl

@[simp] theorem platform_modifyClient (f : ClientObj → ClientObj) :
    (w.modifyClient core i f).platform = w.platform := rfl

@[simp] theorem client_modifyRefCnt (f : Int → Int) :
    (w.modifyRefCnt core f).client core' = w.client core' := by
  ext j
  by_cases hc : core' = core <;> simp [World.modifyRefCnt,World.client,hc]

theorem refCnt_modifyRefCnt (f : Int → Int) :
    (w.modifyRefCnt core f).refCnt core' =
      if core' = core then f (w.refCnt core) else w.refCnt core' := by
  by_cases hc : core' = core <;> simp [World.modifyRefCnt,World.refCnt,hc]

@[simp] theorem attachInfo_modifyRefCnt (f : Int → Int) :
    (w.modifyRefCnt core f).attachInfo core' = w.attachInfo core' := by
  by_cases hc : core' = core <;> simp [World.modifyRefCnt,World.attachInfo,hc]

@[simp] theorem initDone_modifyRefCnt (f : Int → Int) :
    (w.modifyRefCnt core f).server.initDone = w.server.initDone := rfl

@[simp] theorem hMcmCmdIf_modifyRefCnt (f : Int → Int) :
    (w.modifyRefCnt core f).server.hMcmCmdIf = w.server.hMcmCmdIf := rfl

@[simp] theorem virtPortCfg_modifyRefCnt (f : Int → Int) :
    (w.modifyRefCnt core f).server.virtPortCfg = w.server.virtPortCfg := rfl

@[simp] theorem platform_modifyRefCnt (f : Int → Int) :
    (w.modifyRefCnt core f).platform = w.platform := rfl

@[simp] theorem client_storeAttachInfo (a : AttachInfo) :
    (w.storeAttachInfo core a).client core' = w.client core' := by
  ext j
  by_cases hc : core' = core <;> simp [World.storeAttachInfo,World.client,hc]

@[simp] theorem refCnt_storeAttachInfo (a : AttachInfo) :
    (w.storeAttachInfo core a).refCnt core' = w.refCnt core' := by
  by_cases hc : core' = core <;> simp [World.storeAttachInfo,World.refCnt,hc]

theorem attachInfo_storeAttachInfo (a : AttachInfo) :
    (w.storeAttachInfo core a).attachInfo core' =
      if core' = core then a else w.attachInfo core' := by
  by_cases hc : core' = core <;> simp [World.storeAttachInfo,World.attachInfo,hc]

@[simp] theorem initDone_storeAttachInfo (a : AttachInfo) :
    (w.storeAttachInfo core a).server.initDone = w.server.initDone := rfl

@[simp] theorem hMcmCmdIf_storeAttachInfo (a : AttachInfo) :
    (w.storeAttachInfo core a).server.hMcmCmdIf = w.server.hMcmCmdIf := rfl

@[simp] theorem virtPortCfg_storeAttachInfo (a : AttachInfo) :
    (w.storeAttachInfo core a).server.virtPortCfg = w.server.virtPortCfg := rfl

@[simp] theorem platform_storeAttachInfo (a : AttachInfo) :
    (w.storeAttachInfo core a).platform = w.platform := rfl

end Rewriting

@[simp] theorem client_initServer (csum : Bool) (cfg : List VirtPortCfg)
    (core : Fin procs) (i : Slot) :
    (initServer procs csum cfg).client core i = ClientObj.zero := rfl

@[simp] theorem refCnt_initServer (csum : Bool) (cfg : List VirtPortCfg) (core : Fin procs) :
    (initServer procs csum cfg).refCnt core = 0 := rfl

section Tables

variable {w : World procs} {core : Fin procs} {i : Slot} {token ep v : U32}

/-- A core without a free slot gives none. -/
theorem allocClient_eq_none_iff :
    allocClient w core ep v = none ↔ ¬ w.hasFreeSlot core := by
  unfold allocClient World.hasFreeSlot
  cases hs : firstSlot (fun c => !c.inUse) (w.client core) with
  | none =>
    have hall := firstSlot_eq_none_iff.mp hs
    simpa using hall
  | some i =>
    have hi := (firstSlot_eq_some_iff.mp hs).1
    simp only [reduceCtorEq,false_iff,not_not]
    exact ⟨i,by simpa using hi⟩

/-- The slot an allocation gives was free, and its object is rewritten. -/
theorem allocClient_eq_some {w' : World procs} (h : allocClient w core ep v = some (i,w')) :
    (w.client core i).inUse = false ∧ w' = w.modifyClient core i fun c =>
      { c with inUse := true, virtPort := v, token := tokenNone,
               remoteEp := ep, isIdle := false, vlanRefCnt := 0#32 } := by
  unfold allocClient at h
  cases hs : firstSlot (fun c => !c.inUse) (w.client core) with
  | none => simp [hs] at h
  | some k =>
    have hk := (firstSlot_eq_some_iff.mp hs).1
    rw [hs] at h
    obtain ⟨rfl,rfl⟩ := Prod.mk.inj (Option.some.inj h)
    exact ⟨by simpa using hk,rfl⟩

/-- A free slot is found whenever there is one. -/
theorem allocClient_of_hasFreeSlot (ep v : U32) (h : w.hasFreeSlot core) :
    ∃ i w', allocClient w core ep v = some (i,w') := by
  cases ha : allocClient w core ep v with
  | none => exact absurd h (allocClient_eq_none_iff.mp ha)
  | some r => exact ⟨r.1,r.2,rfl⟩

theorem getClient_eq_some (h : getClient w core token = some i) :
    (w.client core i).inUse = true ∧ (w.client core i).token = token := by
  have hi := (firstSlot_eq_some_iff.mp h).1
  simpa using hi

theorem getClient_eq_none_iff :
    getClient w core token = none ↔
      ∀ i, (w.client core i).inUse = true → (w.client core i).token ≠ token := by
  unfold getClient
  rw [firstSlot_eq_none_iff]
  refine forall_congr' fun i => ?_
  cases (w.client core i).inUse <;> simp

/-- A token carried by one slot alone resolves to that slot. -/
theorem getClient_of_unique (hi : (w.client core i).inUse = true)
    (ht : (w.client core i).token = token)
    (hu : ∀ j, (w.client core j).inUse = true → (w.client core j).token = token → j = i) :
    getClient w core token = some i := by
  apply firstSlot_eq_of_unique
  · simp [hi,ht]
  · intro j hj
    simp only [Bool.and_eq_true,beq_iff_eq] at hj
    exact hu j hj.1 hj.2

/-- A token computed from a port number is even, so it is never the
reserved token. -/
theorem virtPort2Token_ne_tokenNone (v : U32) : virtPort2Token v ≠ tokenNone := by
  unfold virtPort2Token tokenNone
  intro h
  have h2 := congrArg BitVec.toNat h
  simp only [BitVec.toNat_mul,BitVec.toNat_ofNat] at h2
  omega

end Tables

end EthernetFirmware.ProxyServerClients
