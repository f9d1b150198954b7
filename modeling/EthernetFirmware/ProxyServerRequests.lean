import EthernetFirmware.ProxyServerClients

/-!
# Attach requests of the server proxy

The request handler for VIRT_PORT_INFO, ATTACH, ATTACH_EXT, DETACH and
TEARDOWN_COMPLETION, with every field of the responses they build. The
external driver calls are inputs: `Outcomes` lists what each one returns
while a request is served. An out parameter that a path does not write
is `none`.

One effect theorem states everything an attach that takes a slot does,
and one what a detach does; the run results use these and never unfold a
handler again.
-/

namespace EthernetFirmware.ProxyServerRequests

open Function SlotTables BitMasks RemoteConfig ProxyServerClients

/-- What the external calls return while one request is served. -/
structure Outcomes where
  /-- Whether `EnetMcm_coreAttach` attaches the core. -/
  coreAttachOk : Bool
  /-- Driver information left by `EnetMcm_coreAttach`. -/
  coreAttachInfo : AttachInfo
  /-- Status of `EnetAppUtils_allocRxFlow`. -/
  rxFlowStatus : Status
  /-- Flow index base of the receive flow. -/
  rxFlowIdxBase : U32
  /-- Flow index offset of the receive flow. -/
  rxFlowIdxOffset : U32
  /-- Result of `EnetAppUtils_getStartFlowIdx`. -/
  startFlowIdx : U32
  /-- Status of `EnetAppUtils_allocTxCh`. -/
  txChStatus : Status
  /-- Peer destination thread of the transmit channel. -/
  txPsilDstId : U32
  /-- Status of `EnetAppUtils_allocMac`. -/
  macStatus : Status
  /-- Address given by `EnetAppUtils_allocMac`. -/
  macAddr : MacAddr
  /-- Result of `EnetSoc_getRxChPeerId`. -/
  rxChPeerId : U32
  /-- Whether `EnetMcm_coreDetach` detaches the core. -/
  coreDetachOk : Bool

/-- Commands modelled here, with their request parameters. -/
inductive Cmd where
  /-- Ask for the ports offered to the caller. -/
  | virtPortInfo
  /-- Attach a virtual port. -/
  | attach (virtPort : U32)
  /-- Attach a virtual port and allocate its resources. -/
  | attachExt (virtPort : U32)
  /-- Give a virtual port back. -/
  | detach
  /-- Confirm the end of a teardown. -/
  | teardownCompletion
  deriving DecidableEq

/-- Request type in the header of a command. -/
def Cmd.reqType : Cmd → CmdType
  | .virtPortInfo => .virtPortInfo
  | .attach _ => .attach
  | .attachExt _ => .attachExt
  | .detach => .detach
  | .teardownCompletion => .teardownCompletion

/-- A request as the server's task receives it. -/
structure Request (procs : ℕ) where
  /-- Core the message came from. -/
  remoteProcId : Fin procs
  /-- Endpoint the message came from. -/
  remoteEndPt : U32
  /-- Client identity of the header, cut to a byte. -/
  clientId : U8
  /-- Token of the header. -/
  token : U32
  /-- Request id of the header. -/
  reqId : U32
  /-- Command. -/
  cmd : Cmd

/-- Out parameters of the attach handlers; `none` is not written. -/
structure AttachParams where
  /-- Receive unit. -/
  rxMtu : Option U32 := none
  /-- Transmit unit. -/
  txMtu : Option U32 := none
  /-- Feature bits. -/
  features : Option U32 := none
  /-- Number of transmit channels. -/
  numTxCh : Option U32 := none
  /-- Number of receive flows. -/
  numRxFlow : Option U32 := none
  /-- Flow index base. -/
  rxFlowIdxBase : Option U32 := none
  /-- Flow index offset. -/
  rxFlowIdxOffset : Option U32 := none
  /-- Transmit peer thread. -/
  txPsilDstId : Option U32 := none
  /-- Receive peer thread. -/
  rxPsilSrcId : Option U32 := none
  /-- MAC address. -/
  macAddr : Option MacAddr := none
  deriving DecidableEq

/-- Masks of the ports offered to a client. -/
structure PortMasks where
  /-- Offered virtual switch ports. -/
  switchPortMask : U32
  /-- Offered virtual MAC ports. -/
  macPortMask : U32
  deriving DecidableEq

/-- Response parameters. -/
inductive Body where
  /-- Status only. -/
  | status
  /-- Ports offered; `none` when the masks were not written. -/
  | portMasks (m : Option PortMasks)
  /-- Attach parameters. -/
  | attach (p : AttachParams)
  deriving DecidableEq

/-- A response: header fields and parameters. -/
structure Response where
  /-- Token of the header. -/
  token : U32
  /-- Client identity of the header. -/
  clientId : U8
  /-- Response type. -/
  resType : CmdType
  /-- Response id. -/
  resId : U32
  /-- Status of the request. -/
  status : Status
  /-- Parameters. -/
  body : Body
  deriving DecidableEq

variable {procs : ℕ}

/-- What a handler leaves: the world, its status and its out parameters. -/
structure Handled (procs : ℕ) where
  /-- World after the handler. -/
  world : World procs
  /-- Status the handler returns. -/
  status : Status
  /-- Out parameters written so far. -/
  out : AttachParams

/-- Run the next stage of a handler only after success. -/
def Handled.andThen (h : Handled procs)
    (f : World procs → AttachParams → Handled procs) : Handled procs :=
  if h.status = sok then f h.world h.out else h

/-- `CpswProxyServer_getPortMask`, one configuration entry at a time. -/
def portMaskStep (clientId : ℕ) (hostId : ℕ) (acc : PortMasks × Bool) (c : VirtPortCfg) :
    PortMasks × Bool :=
  if c.remoteCoreId = hostId ∧ isSet c.clientIdMask clientId = true then
    if isSwitchPort c.portId.val then
      ({ acc.1 with switchPortMask := acc.1.switchPortMask ||| bit c.portId.val.toNat },true)
    else
      ({ acc.1 with macPortMask := acc.1.macPortMask ||| bit c.portId.val.toNat },true)
  else acc

/-- `CpswProxyServer_getPortMask`. -/
def getPortMask (s : Server procs) (clientId : ℕ) (hostId : ℕ) : Status × PortMasks :=
  let r := s.virtPortCfg.foldl (portMaskStep clientId hostId) (⟨0#32,0#32⟩,false)
  (if r.2 then getHandle s else ebadArgs,r.1)

/-- `CpswProxyServer_VirtPortAllocCb`. -/
def virtPortAllocCb (s : Server procs) (clientId : ℕ) (hostId : ℕ) :
    Status × Option PortMasks :=
  if clientId ≤ clientIdLast then
    let r := getPortMask s clientId hostId
    (r.1,some r.2)
  else (ebadArgs,none)

/-- `CpswProxyServer_getClientTxChRxFlowNum`. The failure status set at
the start is overwritten by the handle look-up, so a port without a
configuration is reported with that look-up's status. -/
def getClientTxChRxFlowNum (s : Server procs) (virtPort : U32) :
    Status × Option (U32 × U32) :=
  match s.virtPortCfg.find? fun c => c.portId.val == virtPort with
  | some c => (sok,some (c.numTxCh,c.numRxFlow))
  | none => (getHandle s,none)

/-- `CpswProxyServer_saveRxFlowOffset` on the configuration table. -/
def saveRxFlowOffset (virtPort : U32) (relFlowIdx : ℕ) (rxFlowIdxOffset : U32) :
    List VirtPortCfg → List VirtPortCfg
  | [] => []
  | c :: cs =>
    if c.portId.val = virtPort then
      { c with rxFlowIdxOffset := c.rxFlowIdxOffset.set relFlowIdx rxFlowIdxOffset } :: cs
    else c :: saveRxFlowOffset virtPort relFlowIdx rxFlowIdxOffset cs

/-- `CpswProxyServer_validateStartIdx`. -/
def validateStartIdx (x : Outcomes) (rxFlowStartId : U32) : Status :=
  if rxFlowStartId = x.startFlowIdx then sok else ebadArgs

/-- `EnetMcm_coreAttach` and the copy of its output into the core object. -/
def mcmCoreAttach (w : World procs) (x : Outcomes) (core : Fin procs) : World procs :=
  { w.storeAttachInfo core x.coreAttachInfo with
      platform := { w.platform with
        attached := if x.coreAttachOk then update w.platform.attached core true
          else w.platform.attached
        mcmCalls := w.platform.mcmCalls ++ [.coreAttach core] } }

/-- `EnetMcm_coreDetach`. -/
def mcmCoreDetach (w : World procs) (x : Outcomes) (core : Fin procs) : World procs :=
  { w with platform := { w.platform with
      attached := if x.coreDetachOk then update w.platform.attached core false
        else w.platform.attached
      mcmCalls := w.platform.mcmCalls ++ [.coreDetach core] } }

/-- The reference part of an attach: the core is attached when it has no
reference yet, and the reference is counted either way. -/
def referCore (w : World procs) (x : Outcomes) (core : Fin procs) : World procs :=
  (if w.refCnt core = 0 then mcmCoreAttach w x core else w).modifyRefCnt core (· + 1)

/-- The reference part of a detach: the count drops, and the core is
detached when no reference remains. -/
def releaseCore (w : World procs) (x : Outcomes) (core : Fin procs) : World procs :=
  let w1 := w.modifyRefCnt core (· - 1)
  if w1.refCnt core = 0 then mcmCoreDetach w1 x core else w1

/-- Features of a virtual port. -/
def virtPortFeatures (s : Server procs) (virtPort : U32) : U32 :=
  (if s.csumOffloadEn then bit 0 else 0#32) ||| (if isMacPort virtPort then 0#32 else bit 1)

/-- `CpswProxyServer_attachHandlerCb`. The token is stored whatever the
status of the channel look-up. -/
def attachHandlerCb (w : World procs) (x : Outcomes) (core : Fin procs) (i : Slot)
    (portId : U32) (wantNums : Bool) : Handled procs :=
  if w.server.initDone then
    let w1 := referCore w x core
    let info := w1.attachInfo core
    if info.uniformTxMtu then
      let features := virtPortFeatures w1.server portId
      let nums := if wantNums then getClientTxChRxFlowNum w1.server portId else (sok,none)
      { world := w1.modifyClient core i fun c =>
          { c with token := virtPort2Token portId, coreId := core, features := features }
        status := nums.1
        out := { rxMtu := some info.rxMtu, txMtu := some info.firstTxMtu,
                 features := some features, numTxCh := nums.2.map Prod.fst,
                 numRxFlow := nums.2.map Prod.snd } }
    else ⟨w1,efail,{ rxMtu := some info.rxMtu }⟩
  else ⟨w,getHandle w.server,{}⟩

/-- Receive-flow stage of `CpswProxyServer_attachExtHandlerCb`. -/
def allocRxFlow (x : Outcomes) (core : Fin procs) (i : Slot) (w : World procs)
    (out : AttachParams) : Handled procs :=
  if x.rxFlowStatus = sok then
    let w1 := { w with platform := { w.platform with
      rxFlows := w.platform.rxFlows ++ [(core,x.rxFlowIdxBase,x.rxFlowIdxOffset)] } }
    let out1 := { out with rxFlowIdxBase := some x.rxFlowIdxBase,
                           rxFlowIdxOffset := some x.rxFlowIdxOffset }
    let status := validateStartIdx x x.rxFlowIdxBase
    if status = sok then
      ⟨{ w1 with server := { w1.server with
          virtPortCfg := saveRxFlowOffset (w1.client core i).virtPort 0 x.rxFlowIdxOffset
            w1.server.virtPortCfg } },sok,out1⟩
    else ⟨w1,status,out1⟩
  else ⟨w,x.rxFlowStatus,out⟩

/-- Transmit-channel stage of `CpswProxyServer_attachExtHandlerCb`. -/
def allocTxCh (x : Outcomes) (core : Fin procs) (w : World procs) (out : AttachParams) :
    Handled procs :=
  if x.txChStatus = sok then
    ⟨{ w with platform := { w.platform with
        txChs := w.platform.txChs ++ [(core,x.txPsilDstId)] } },sok,
      { out with txPsilDstId := some x.txPsilDstId }⟩
  else ⟨w,x.txChStatus,out⟩

/-- MAC-address stage of `CpswProxyServer_attachExtHandlerCb`. -/
def allocMac (x : Outcomes) (core : Fin procs) (w : World procs) (out : AttachParams) :
    Handled procs :=
  if x.macStatus = sok then
    ⟨{ w with platform := { w.platform with
        macs := w.platform.macs ++ [(core,x.macAddr)] } },sok,
      { out with macAddr := some x.macAddr }⟩
  else ⟨w,x.macStatus,out⟩

/-- Last stage of `CpswProxyServer_attachExtHandlerCb`: the parameters are
saved in the client object. -/
def saveParams (x : Outcomes) (core : Fin procs) (i : Slot) (w : World procs)
    (out : AttachParams) : Handled procs :=
  ⟨w.modifyClient core i fun c =>
      { c with flowIdxBase := x.rxFlowIdxBase, flowIdxOffset := x.rxFlowIdxOffset,
               psilDstId := x.txPsilDstId, macAddr := x.macAddr },sok,
    { out with rxPsilSrcId := some x.rxChPeerId }⟩

/-- `CpswProxyServer_attachExtHandlerCb`. -/
def attachExtHandlerCb (w : World procs) (x : Outcomes) (core : Fin procs) (i : Slot)
    (portId : U32) : Handled procs :=
  (attachHandlerCb w x core i portId false)
    |>.andThen (fun w out => ⟨w,getHandle w.server,out⟩)
    |>.andThen (allocRxFlow x core i)
    |>.andThen (allocTxCh x core)
    |>.andThen (allocMac x core)
    |>.andThen (saveParams x core i)

/-- `CpswProxyServer_detachHandlerCb`. -/
def detachHandlerCb (w : World procs) (x : Outcomes) (core : Fin procs) :
    World procs × Status :=
  if w.server.initDone then
    if w.server.hMcmCmdIf then
      (releaseCore w x core,sok)
    else (w,einvalidParams)
  else (w,getHandle w.server)

/-- The response built at the end of the request handler. -/
def respond (r : Request procs) (token : U32) (status : Status) (body : Body) : Response :=
  ⟨token,r.clientId,r.cmd.reqType,r.reqId,status,body⟩

/-- The two attach cases of the request handler, for the callback of each. -/
def serveAttach (w : World procs) (r : Request procs) (virtPort : U32)
    (callback : World procs → Slot → Handled procs) : World procs × Response :=
  match allocClient w r.remoteProcId r.remoteEndPt virtPort with
  | none => (w,respond r r.token ealloc (.attach {}))
  | some (i,w1) =>
    let h := callback w1 i
    (h.world.modifyClient r.remoteProcId i fun c =>
        { c with clientId := r.clientId.setWidth 32 },
      respond r (h.world.client r.remoteProcId i).token h.status (.attach h.out))

/-- `CpswProxyServer_clientRequestHandler` for the modelled commands. -/
def clientRequestHandler (w : World procs) (x : Outcomes) (r : Request procs) :
    World procs × Response :=
  match r.cmd with
  | .virtPortInfo =>
    let a := virtPortAllocCb w.server r.clientId.toNat r.remoteProcId
    (w,respond r r.token a.1 (.portMasks a.2))
  | .attach v =>
    serveAttach w r v fun w1 i => attachHandlerCb w1 x r.remoteProcId i v true
  | .attachExt v =>
    serveAttach w r v fun w1 i => attachExtHandlerCb w1 x r.remoteProcId i v
  | .detach =>
    match getClient w r.remoteProcId r.token with
    | none => (w,respond r r.token einvalidParams .status)
    | some i =>
      let d := detachHandlerCb w x r.remoteProcId
      (freeClient d.1 r.remoteProcId i,respond r r.token d.2 .status)
  | .teardownCompletion =>
    match getClient w r.remoteProcId r.token with
    | none => (w,respond r r.token efail .status)
    | some i =>
      (w.modifyClient r.remoteProcId i fun c => { c with isIdle := true },
        respond r r.token sok .status)

/-- The transmit units an attach of the core compares are all equal: those
the driver returns on the first reference, the stored ones later. -/
def mtuOk (w : World procs) (x : Outcomes) (core : Fin procs) : Bool :=
  (if w.refCnt core = 0 then x.coreAttachInfo else w.attachInfo core).uniformTxMtu

/-- The allocations made by an extended attach succeed and the flow base
is the expected one. -/
def extStepsOk (x : Outcomes) : Prop :=
  x.rxFlowStatus = sok ∧ x.rxFlowIdxBase = x.startFlowIdx ∧
    x.txChStatus = sok ∧ x.macStatus = sok

instance (x : Outcomes) : Decidable (extStepsOk x) := inferInstanceAs (Decidable (_ ∧ _))

/-- Client objects, references and port assignments are the same. -/
structure SameCores (w w' : World procs) : Prop where
  /-- Core objects. -/
  coreObj : w'.server.coreObj = w.server.coreObj
  /-- Readiness. -/
  initDone : w'.server.initDone = w.server.initDone
  /-- Command interface. -/
  hMcmCmdIf : w'.server.hMcmCmdIf = w.server.hMcmCmdIf
  /-- Port assignments. -/
  assignments : w'.assignments = w.assignments
  /-- Attached cores. -/
  attached : w'.platform.attached = w.platform.attached
  /-- Multi-client manager calls. -/
  mcmCalls : w'.platform.mcmCalls = w.platform.mcmCalls

theorem SameCores.refl (w : World procs) : SameCores w w := ⟨rfl,rfl,rfl,rfl,rfl,rfl⟩

theorem SameCores.client {w w' : World procs} (h : SameCores w w') (core : Fin procs) :
    w'.client core = w.client core := by
  unfold World.client
  rw [h.coreObj]

theorem SameCores.refCnt {w w' : World procs} (h : SameCores w w') (core : Fin procs) :
    w'.refCnt core = w.refCnt core := by
  unfold World.refCnt
  rw [h.coreObj]

/-- Everything an attach callback does to the table, the references and
the multi-client manager. -/
structure CallbackEffect (w : World procs) (x : Outcomes) (core : Fin procs) (i : Slot)
    (v : U32) (w' : World procs) : Prop where
  /-- Other slots of the core are untouched. -/
  table : w'.client core = update (w.client core) i (w'.client core i)
  /-- Other cores' slots are untouched. -/
  others : ∀ core', core' ≠ core → w'.client core' = w.client core'
  /-- The slot keeps its use. -/
  inUse : (w'.client core i).inUse = (w.client core i).inUse
  /-- The token is stored exactly when the transmit units agree. -/
  token : (w'.client core i).token =
    if mtuOk w x core then virtPort2Token v else (w.client core i).token
  /-- The slot keeps its port. -/
  virtPort : (w'.client core i).virtPort = (w.client core i).virtPort
  /-- The slot keeps its endpoint. -/
  remoteEp : (w'.client core i).remoteEp = (w.client core i).remoteEp
  /-- The slot keeps its idle mark. -/
  isIdle : (w'.client core i).isIdle = (w.client core i).isIdle
  /-- One reference of the core is counted. -/
  refCnt : ∀ core', w'.refCnt core' =
    if core' = core then w.refCnt core + 1 else w.refCnt core'
  /-- The core is attached on its first reference, if the driver can. -/
  attached : w'.platform.attached =
    if w.refCnt core = 0 ∧ x.coreAttachOk = true then update w.platform.attached core true
    else w.platform.attached
  /-- One attach call is made on the first reference. -/
  mcmCalls : w'.platform.mcmCalls =
    if w.refCnt core = 0 then w.platform.mcmCalls ++ [.coreAttach core]
    else w.platform.mcmCalls
  /-- The server stays ready. -/
  initDone : w'.server.initDone = w.server.initDone
  /-- The command interface stays. -/
  hMcmCmdIf : w'.server.hMcmCmdIf = w.server.hMcmCmdIf
  /-- Port assignments are untouched. -/
  assignments : w'.assignments = w.assignments

section Callbacks

variable {w w' w'' : World procs} {x : Outcomes} {core : Fin procs} {i : Slot} {v : U32}
  {wantNums : Bool}

/-- A callback effect may be followed by anything that leaves the cores
alone. -/
theorem CallbackEffect.of_sameCores (h : CallbackEffect w x core i v w')
    (h' : SameCores w' w'') : CallbackEffect w x core i v w'' where
  table := by rw [h'.client core]; exact h.table
  others := fun core' hc => (h'.client core').trans (h.others core' hc)
  inUse := by rw [h'.client core]; exact h.inUse
  token := by rw [h'.client core]; exact h.token
  virtPort := by rw [h'.client core]; exact h.virtPort
  remoteEp := by rw [h'.client core]; exact h.remoteEp
  isIdle := by rw [h'.client core]; exact h.isIdle
  refCnt := fun core' => (h'.refCnt core').trans (h.refCnt core')
  attached := h'.attached.trans h.attached
  mcmCalls := h'.mcmCalls.trans h.mcmCalls
  initDone := h'.initDone.trans h.initDone
  hMcmCmdIf := h'.hMcmCmdIf.trans h.hMcmCmdIf
  assignments := h'.assignments.trans h.assignments

/-- A callback effect may be followed by a rewrite of the slot's resource
fields. -/
theorem CallbackEffect.modifyClient (h : CallbackEffect w x core i v w')
    (f : ClientObj → ClientObj) (hu : ∀ c, (f c).inUse = c.inUse)
    (ht : ∀ c, (f c).token = c.token) (hv : ∀ c, (f c).virtPort = c.virtPort)
    (he : ∀ c, (f c).remoteEp = c.remoteEp) (hi : ∀ c, (f c).isIdle = c.isIdle) :
    CallbackEffect w x core i v (w'.modifyClient core i f) where
  table := by
    rw [client_modifyClient_core,h.table]
    simp
  others := fun core' hc => by
    rw [← h.others core' hc]
    ext j
    exact client_modifyClient_of_ne w' f (Or.inl hc)
  inUse := by rw [client_modifyClient_self,hu,h.inUse]
  token := by rw [client_modifyClient_self,ht,h.token]
  virtPort := by rw [client_modifyClient_self,hv,h.virtPort]
  remoteEp := by rw [client_modifyClient_self,he,h.remoteEp]
  isIdle := by rw [client_modifyClient_self,hi,h.isIdle]
  refCnt := fun core' => by rw [refCnt_modifyClient,h.refCnt]
  attached := h.attached
  mcmCalls := h.mcmCalls
  initDone := h.initDone
  hMcmCmdIf := h.hMcmCmdIf
  assignments := h.assignments

@[simp] theorem client_mcmCoreAttach (core' : Fin procs) :
    (mcmCoreAttach w x core).client core' = w.client core' :=
  client_storeAttachInfo w core core' x.coreAttachInfo

@[simp] theorem refCnt_mcmCoreAttach (core' : Fin procs) :
    (mcmCoreAttach w x core).refCnt core' = w.refCnt core' :=
  refCnt_storeAttachInfo w core core' x.coreAttachInfo

theorem attachInfo_mcmCoreAttach :
    (mcmCoreAttach w x core).attachInfo core = x.coreAttachInfo :=
  (attachInfo_storeAttachInfo w core core x.coreAttachInfo).trans (if_pos rfl)

@[simp] theorem client_referCore (core' : Fin procs) :
    (referCore w x core).client core' = w.client core' := by
  unfold referCore
  split <;> simp

theorem refCnt_referCore (core' : Fin procs) :
    (referCore w x core).refCnt core' =
      if core' = core then w.refCnt core + 1 else w.refCnt core' := by
  unfold referCore
  split <;> simp [refCnt_modifyRefCnt]

/-- The driver information an attach reads. -/
theorem attachInfo_referCore :
    (referCore w x core).attachInfo core =
      if w.refCnt core = 0 then x.coreAttachInfo else w.attachInfo core := by
  unfold referCore
  split <;> simp [attachInfo_mcmCoreAttach]

theorem referCore_effect (w : World procs) (x : Outcomes) (core : Fin procs) :
    (referCore w x core).platform.attached =
        (if w.refCnt core = 0 ∧ x.coreAttachOk = true then update w.platform.attached core true
          else w.platform.attached) ∧
      (referCore w x core).platform.mcmCalls =
        (if w.refCnt core = 0 then w.platform.mcmCalls ++ [.coreAttach core]
          else w.platform.mcmCalls) ∧
      (referCore w x core).server.initDone = w.server.initDone ∧
      (referCore w x core).server.hMcmCmdIf = w.server.hMcmCmdIf ∧
      (referCore w x core).server.virtPortCfg = w.server.virtPortCfg := by
  unfold referCore
  by_cases h : w.refCnt core = 0
  · rw [if_pos h,if_pos h]
    refine ⟨?_,rfl,rfl,rfl,rfl⟩
    by_cases ha : x.coreAttachOk = true <;> simp [mcmCoreAttach,h,ha]
  · rw [if_neg h,if_neg h]
    simp [h]

@[simp] theorem client_releaseCore (core' : Fin procs) :
    (releaseCore w x core).client core' = w.client core' := by
  have h := client_modifyRefCnt w core core' (· - 1)
  unfold releaseCore
  dsimp only
  split
  · exact h
  · exact h

theorem refCnt_releaseCore (core' : Fin procs) :
    (releaseCore w x core).refCnt core' =
      if core' = core then w.refCnt core - 1 else w.refCnt core' := by
  have h := refCnt_modifyRefCnt w core core' (· - 1)
  unfold releaseCore
  dsimp only
  split
  · exact h
  · exact h

theorem releaseCore_effect (w : World procs) (x : Outcomes) (core : Fin procs) :
    (releaseCore w x core).platform.attached =
        (if w.refCnt core = 1 ∧ x.coreDetachOk = true then update w.platform.attached core false
          else w.platform.attached) ∧
      (releaseCore w x core).platform.mcmCalls =
        (if w.refCnt core = 1 then w.platform.mcmCalls ++ [.coreDetach core]
          else w.platform.mcmCalls) ∧
      (releaseCore w x core).server.initDone = w.server.initDone ∧
      (releaseCore w x core).server.hMcmCmdIf = w.server.hMcmCmdIf ∧
      (releaseCore w x core).server.virtPortCfg = w.server.virtPortCfg := by
  have hone : w.refCnt core - 1 = 0 ↔ w.refCnt core = 1 := by omega
  unfold releaseCore
  simp only [refCnt_modifyRefCnt,if_true,hone]
  by_cases h : w.refCnt core = 1
  · rw [if_pos h,if_pos h]
    refine ⟨?_,rfl,rfl,rfl,rfl⟩
    by_cases ha : x.coreDetachOk = true <;> simp [mcmCoreDetach,h,ha]
  · rw [if_neg h,if_neg h]
    simp [h]

/-- What the attach callback does when the server is ready. -/
theorem attachHandlerCb_effect (hr : w.server.initDone = true) :
    CallbackEffect w x core i v (attachHandlerCb w x core i v wantNums).world := by
  obtain ⟨ha,hc,hi,hm,hp⟩ := referCore_effect w x core
  have hmtu : ((referCore w x core).attachInfo core).uniformTxMtu = mtuOk w x core := by
    rw [attachInfo_referCore]
    rfl
  unfold attachHandlerCb
  simp only [hr,if_true,hmtu]
  by_cases hu : mtuOk w x core = true
  · simp only [hu,if_true]
    constructor
    · rw [client_modifyClient_core]
      simp
    · intro core' hne
      ext j
      rw [client_modifyClient_of_ne _ _ (Or.inl hne),client_referCore]
    · simp
    · simp [hu]
    · simp
    · simp
    · simp
    · intro core'
      rw [refCnt_modifyClient,refCnt_referCore]
    · exact ha
    · exact hc
    · exact hi
    · exact hm
    · exact congrArg (List.map assignment) hp
  · simp only [hu,if_false,Bool.false_eq_true]
    constructor
    · simp
    · intro core' _
      simp
    · simp
    · simp [hu]
    · simp
    · simp
    · simp
    · exact refCnt_referCore
    · exact ha
    · exact hc
    · exact hi
    · exact hm
    · exact congrArg (List.map assignment) hp

/-- The attach callback succeeds exactly when the transmit units agree:
the channel look-up never fails on a ready server. -/
theorem attachHandlerCb_status (hr : w.server.initDone = true) :
    (attachHandlerCb w x core i v wantNums).status = sok ↔ mtuOk w x core = true := by
  have hmtu : ((referCore w x core).attachInfo core).uniformTxMtu = mtuOk w x core := by
    rw [attachInfo_referCore]
    rfl
  have hready : (referCore w x core).server.initDone = true :=
    (referCore_effect w x core).2.2.1.trans hr
  have hnums : (getClientTxChRxFlowNum (referCore w x core).server v).1 = sok := by
    unfold getClientTxChRxFlowNum
    split
    · rfl
    · simp [getHandle,hready]
  unfold attachHandlerCb
  simp only [hr,if_true,hmtu]
  by_cases hu : mtuOk w x core = true
  · simp only [hu,if_true,iff_true]
    cases wantNums with
    | false => rfl
    | true => exact hnums
  · simp [hu,efail,sok]

/-- Saving a flow offset leaves the port assignments alone. -/
theorem assignments_saveRxFlowOffset (v : U32) (rel : ℕ) (offset : U32)
    (cfg : List VirtPortCfg) :
    (saveRxFlowOffset v rel offset cfg).map assignment = cfg.map assignment := by
  induction cfg with
  | nil => rfl
  | cons c cs ih =>
    unfold saveRxFlowOffset
    split
    · rfl
    · rw [List.map_cons,List.map_cons,ih]

theorem allocRxFlow_sameCores (out : AttachParams) :
    SameCores w (allocRxFlow x core i w out).world := by
  unfold allocRxFlow
  by_cases hs : x.rxFlowStatus = sok
  · by_cases hv : validateStartIdx x x.rxFlowIdxBase = sok
    · simp only [hs,hv,if_true]
      exact ⟨rfl,rfl,rfl,assignments_saveRxFlowOffset _ _ _ _,rfl,rfl⟩
    · simp only [hs,hv,if_true,if_false]
      exact ⟨rfl,rfl,rfl,rfl,rfl,rfl⟩
  · simp only [hs,if_false]
    exact SameCores.refl w

theorem allocTxCh_sameCores (out : AttachParams) :
    SameCores w (allocTxCh x core w out).world := by
  unfold allocTxCh
  split
  · exact ⟨rfl,rfl,rfl,rfl,rfl,rfl⟩
  · exact SameCores.refl w

theorem allocMac_sameCores (out : AttachParams) :
    SameCores w (allocMac x core w out).world := by
  unfold allocMac
  split
  · exact ⟨rfl,rfl,rfl,rfl,rfl,rfl⟩
  · exact SameCores.refl w

theorem andThen_status (h : Handled procs) (f : World procs → AttachParams → Handled procs) :
    (h.andThen f).status = sok ↔ h.status = sok ∧ (f h.world h.out).status = sok := by
  unfold Handled.andThen
  split
  · next hs => simp [hs]
  · next hs => simp [hs]

/-- A stage that leaves the cores alone keeps a callback's effect. -/
theorem CallbackEffect.andThen {h : Handled procs}
    {f : World procs → AttachParams → Handled procs}
    (he : CallbackEffect w x core i v h.world)
    (hf : ∀ w out, SameCores w (f w out).world) :
    CallbackEffect w x core i v (h.andThen f).world := by
  unfold Handled.andThen
  split
  · exact he.of_sameCores (hf h.world h.out)
  · exact he

theorem CallbackEffect.saveParams (h : CallbackEffect w x core i v w') (out : AttachParams) :
    CallbackEffect w x core i v (saveParams x core i w' out).world := by
  unfold ProxyServerRequests.saveParams
  dsimp only
  refine h.modifyClient _ ?_ ?_ ?_ ?_ ?_ <;> exact fun _ => rfl

/-- What the extended attach callback does when the server is ready. -/
theorem attachExtHandlerCb_effect (hr : w.server.initDone = true) :
    CallbackEffect w x core i v (attachExtHandlerCb w x core i v).world := by
  have h0 : CallbackEffect w x core i v (attachHandlerCb w x core i v false).world :=
    attachHandlerCb_effect hr
  have h1 := h0.andThen (f := fun w out => ⟨w,getHandle w.server,out⟩)
    fun w _ => SameCores.refl w
  have h2 := h1.andThen (f := allocRxFlow x core i) fun _ out => allocRxFlow_sameCores out
  have h3 := h2.andThen (f := allocTxCh x core) fun _ out => allocTxCh_sameCores out
  have h4 := h3.andThen (f := allocMac x core) fun _ out => allocMac_sameCores out
  unfold attachExtHandlerCb
  generalize Handled.andThen _ (allocMac x core) = stages at h4 ⊢
  unfold Handled.andThen
  split
  · exact h4.saveParams stages.out
  · exact h4

theorem allocRxFlow_status (out : AttachParams) :
    (allocRxFlow x core i w out).status = sok ↔
      x.rxFlowStatus = sok ∧ x.rxFlowIdxBase = x.startFlowIdx := by
  unfold allocRxFlow validateStartIdx
  by_cases hs : x.rxFlowStatus = sok
  · by_cases hv : x.rxFlowIdxBase = x.startFlowIdx <;> simp [hs,hv,ebadArgs,sok]
  · simp [hs]

theorem allocTxCh_status (out : AttachParams) :
    (allocTxCh x core w out).status = sok ↔ x.txChStatus = sok := by
  unfold allocTxCh
  split
  · next hs => simp [hs]
  · next hs => simp [hs]

theorem allocMac_status (out : AttachParams) :
    (allocMac x core w out).status = sok ↔ x.macStatus = sok := by
  unfold allocMac
  split
  · next hs => simp [hs]
  · next hs => simp [hs]

/-- The extended attach callback succeeds exactly when the transmit units
agree and every allocation stage succeeds. -/
theorem attachExtHandlerCb_status (hr : w.server.initDone = true) :
    (attachExtHandlerCb w x core i v).status = sok ↔
      mtuOk w x core = true ∧ extStepsOk x := by
  have hready : (attachHandlerCb w x core i v false).world.server.initDone = true :=
    (attachHandlerCb_effect hr).initDone.trans hr
  unfold attachExtHandlerCb extStepsOk
  simp only [andThen_status,attachHandlerCb_status hr,allocRxFlow_status,allocTxCh_status,
    allocMac_status,getHandle,hready,if_true,saveParams,and_true,and_assoc]

end Callbacks

/-- Everything an attach request that takes slot `i` does, with `ok` the
condition for its success. -/
structure AttachEffect (w : World procs) (x : Outcomes) (r : Request procs) (v : U32)
    (ok : Prop) (i : Slot) (w' : World procs) (res : Response) : Prop where
  /-- It is the slot the allocator gives. -/
  given : (allocClient w r.remoteProcId r.remoteEndPt v).map Prod.fst = some i
  /-- The slot was free. -/
  wasFree : (w.client r.remoteProcId i).inUse = false
  /-- Other slots of the core are untouched. -/
  table : w'.client r.remoteProcId =
    update (w.client r.remoteProcId) i (w'.client r.remoteProcId i)
  /-- Other cores' slots are untouched. -/
  others : ∀ core, core ≠ r.remoteProcId → w'.client core = w.client core
  /-- The slot is in use, whatever the status. -/
  inUse : (w'.client r.remoteProcId i).inUse = true
  /-- The slot carries a valid token exactly when the transmit units agree. -/
  token : (w'.client r.remoteProcId i).token =
    if mtuOk w x r.remoteProcId then virtPort2Token v else tokenNone
  /-- The slot holds the requested port. -/
  virtPort : (w'.client r.remoteProcId i).virtPort = v
  /-- The slot records the caller's endpoint. -/
  remoteEp : (w'.client r.remoteProcId i).remoteEp = r.remoteEndPt
  /-- The slot records the caller's identity. -/
  clientId : (w'.client r.remoteProcId i).clientId = r.clientId.setWidth 32
  /-- The client starts out not idle. -/
  isIdle : (w'.client r.remoteProcId i).isIdle = false
  /-- One reference of the core is counted, whatever the status. -/
  refCnt : ∀ core, w'.refCnt core =
    if core = r.remoteProcId then w.refCnt r.remoteProcId + 1 else w.refCnt core
  /-- The core is attached on its first reference, if the driver can. -/
  attached : w'.platform.attached =
    if w.refCnt r.remoteProcId = 0 ∧ x.coreAttachOk = true then
      update w.platform.attached r.remoteProcId true
    else w.platform.attached
  /-- One attach call is made on the first reference. -/
  mcmCalls : w'.platform.mcmCalls =
    if w.refCnt r.remoteProcId = 0 then
      w.platform.mcmCalls ++ [.coreAttach r.remoteProcId]
    else w.platform.mcmCalls
  /-- The server stays ready. -/
  initDone : w'.server.initDone = w.server.initDone
  /-- The command interface stays. -/
  hMcmCmdIf : w'.server.hMcmCmdIf = w.server.hMcmCmdIf
  /-- Port assignments are untouched. -/
  assignments : w'.assignments = w.assignments
  /-- The response status tells whether every step succeeded. -/
  status : res.status = sok ↔ ok
  /-- The response carries the slot's token. -/
  resToken : res.token = (w'.client r.remoteProcId i).token

/-- The port an attach command names, and whether it is the extended one. -/
def Cmd.attachPort : Cmd → Option (U32 × Bool)
  | .attach v => some (v,false)
  | .attachExt v => some (v,true)
  | _ => none

/-- Every step of an attach of the core succeeds. -/
def attachStepsOk (w : World procs) (x : Outcomes) (core : Fin procs) (ext : Bool) : Prop :=
  mtuOk w x core = true ∧ (ext = true → extStepsOk x)

instance (w : World procs) (x : Outcomes) (core : Fin procs) (ext : Bool) :
    Decidable (attachStepsOk w x core ext) := inferInstanceAs (Decidable (_ ∧ _))

section Handler

variable {w : World procs} {x : Outcomes} {r : Request procs} {v : U32} {ext : Bool}
  {i : Slot}

/-- The callback's effect, seen from before the slot was taken and after
the client identity was stored. -/
theorem serveAttach_effect {w1 : World procs} {h : Handled procs} {ok : Prop}
    (ha : allocClient w r.remoteProcId r.remoteEndPt v = some (i,w1))
    (he : CallbackEffect w1 x r.remoteProcId i v h.world) (hs : h.status = sok ↔ ok)
    (res : Response) (hres : res.status = h.status)
    (htok : res.token = (h.world.client r.remoteProcId i).token) :
    AttachEffect w x r v ok i
      (h.world.modifyClient r.remoteProcId i fun c =>
        { c with clientId := r.clientId.setWidth 32 }) res := by
  obtain ⟨hfree,hw1⟩ := allocClient_eq_some ha
  have hmtu : mtuOk w1 x r.remoteProcId = mtuOk w x r.remoteProcId := by
    rw [hw1]
    simp [mtuOk]
  have href : ∀ core, w1.refCnt core = w.refCnt core := by
    intro core
    rw [hw1,refCnt_modifyClient]
  have hplat : w1.platform = w.platform := by rw [hw1,platform_modifyClient]
  constructor
  · rw [ha]
    rfl
  · exact hfree
  · rw [client_modifyClient_core,he.table,hw1,client_modifyClient_core]
    simp
  · intro core hne
    have hother := he.others core hne
    ext j
    rw [client_modifyClient_of_ne _ _ (Or.inl hne),hother,hw1,
      client_modifyClient_of_ne _ _ (Or.inl hne)]
  · simp [he.inUse,hw1]
  · rw [client_modifyClient_self,he.token,hmtu,hw1,client_modifyClient_self]
  · simp [he.virtPort,hw1]
  · simp [he.remoteEp,hw1]
  · simp
  · simp [he.isIdle,hw1]
  · intro core
    rw [refCnt_modifyClient,he.refCnt,href,href]
  · rw [platform_modifyClient,he.attached,href,hplat]
  · rw [platform_modifyClient,he.mcmCalls,href,hplat]
  · rw [initDone_modifyClient,he.initDone,hw1,initDone_modifyClient]
  · rw [hMcmCmdIf_modifyClient,he.hMcmCmdIf,hw1,hMcmCmdIf_modifyClient]
  · have h1 : w1.assignments = w.assignments := by
      rw [hw1]
      rfl
    exact he.assignments.trans h1
  · rw [hres,hs]
  · rw [htok]
    simp

/-- An attach served by a ready server on a core with a free slot takes a
slot, and every later property of attaches follows from its effect. -/
theorem attach_effect (hr : w.server.initDone = true)
    (hc : r.cmd.attachPort = some (v,ext)) (hf : w.hasFreeSlot r.remoteProcId) :
    ∃ i, AttachEffect w x r v (attachStepsOk w x r.remoteProcId ext) i
      (clientRequestHandler w x r).1 (clientRequestHandler w x r).2 := by
  obtain ⟨i,w1,ha⟩ := allocClient_of_hasFreeSlot r.remoteEndPt v hf
  obtain ⟨-,hw1⟩ := allocClient_eq_some ha
  have hr1 : w1.server.initDone = true := by rw [hw1,initDone_modifyClient,hr]
  have hmtu : mtuOk w1 x r.remoteProcId = mtuOk w x r.remoteProcId := by
    rw [hw1]
    simp [mtuOk]
  refine ⟨i,?_⟩
  unfold clientRequestHandler
  cases hcmd : r.cmd with
  | attach v' =>
    rw [hcmd] at hc
    obtain ⟨rfl,rfl⟩ : v' = v ∧ ext = false := by simpa [Cmd.attachPort,eq_comm] using hc
    simp only [serveAttach,ha]
    refine serveAttach_effect ha (attachHandlerCb_effect hr1) ?_ _ rfl rfl
    rw [attachHandlerCb_status hr1,hmtu]
    simp [attachStepsOk]
  | attachExt v' =>
    rw [hcmd] at hc
    obtain ⟨rfl,rfl⟩ : v' = v ∧ ext = true := by simpa [Cmd.attachPort,eq_comm] using hc
    simp only [serveAttach,ha]
    refine serveAttach_effect ha (attachExtHandlerCb_effect hr1) ?_ _ rfl rfl
    rw [attachExtHandlerCb_status hr1,hmtu]
    simp [attachStepsOk]
  | virtPortInfo => simp [hcmd,Cmd.attachPort] at hc
  | detach => simp [hcmd,Cmd.attachPort] at hc
  | teardownCompletion => simp [hcmd,Cmd.attachPort] at hc

/-- An attach on a core without a free slot only answers. -/
theorem attach_full (hc : r.cmd.attachPort = some (v,ext))
    (hf : ¬ w.hasFreeSlot r.remoteProcId) :
    (clientRequestHandler w x r).1 = w ∧ (clientRequestHandler w x r).2.status = ealloc := by
  have ha : allocClient w r.remoteProcId r.remoteEndPt v = none :=
    allocClient_eq_none_iff.mpr hf
  unfold clientRequestHandler
  cases hcmd : r.cmd with
  | attach v' =>
    obtain rfl : v' = v := by
      rw [hcmd] at hc
      simpa [Cmd.attachPort] using congrArg (Option.map Prod.fst) hc
    simp [serveAttach,ha,respond]
  | attachExt v' =>
    obtain rfl : v' = v := by
      rw [hcmd] at hc
      simpa [Cmd.attachPort] using congrArg (Option.map Prod.fst) hc
    simp [serveAttach,ha,respond]
  | virtPortInfo => simp [hcmd,Cmd.attachPort] at hc
  | detach => simp [hcmd,Cmd.attachPort] at hc
  | teardownCompletion => simp [hcmd,Cmd.attachPort] at hc

end Handler

/-- Everything a detach that resolves to slot `i` does. -/
structure DetachEffect (w : World procs) (x : Outcomes) (core : Fin procs) (i : Slot)
    (w' : World procs) : Prop where
  /-- The slot is cleared, other slots of the core are untouched. -/
  table : w'.client core = update (w.client core) i ClientObj.free
  /-- Other cores' slots are untouched. -/
  others : ∀ core', core' ≠ core → w'.client core' = w.client core'
  /-- One reference of the core is given back. -/
  refCnt : ∀ core', w'.refCnt core' =
    if core' = core then w.refCnt core - 1 else w.refCnt core'
  /-- The core is detached on its last reference, if the driver can. -/
  attached : w'.platform.attached =
    if w.refCnt core = 1 ∧ x.coreDetachOk = true then update w.platform.attached core false
    else w.platform.attached
  /-- One detach call is made on the last reference. -/
  mcmCalls : w'.platform.mcmCalls =
    if w.refCnt core = 1 then w.platform.mcmCalls ++ [.coreDetach core]
    else w.platform.mcmCalls
  /-- The server stays ready. -/
  initDone : w'.server.initDone = w.server.initDone
  /-- The command interface stays. -/
  hMcmCmdIf : w'.server.hMcmCmdIf = w.server.hMcmCmdIf
  /-- Port assignments are untouched. -/
  assignments : w'.assignments = w.assignments

/-- The server is initialised and the command interface is present. -/
def Ready (w : World procs) : Prop :=
  w.server.initDone = true ∧ w.server.hMcmCmdIf = true

theorem ready_initServer (csum : Bool) (cfg : List VirtPortCfg) :
    Ready (initServer procs csum cfg) := ⟨rfl,rfl⟩

section Handler

variable {w : World procs} {x : Outcomes} {r : Request procs} {i : Slot}

/-- A detach whose token resolves to no slot only answers. -/
theorem detach_unresolved (hc : r.cmd = .detach)
    (hg : getClient w r.remoteProcId r.token = none) :
    (clientRequestHandler w x r).1 = w ∧
      (clientRequestHandler w x r).2.status = einvalidParams := by
  unfold clientRequestHandler
  simp [hc,hg,respond]

/-- What a detach that resolves does when the server is ready. -/
theorem detach_effect (hw : Ready w) (hc : r.cmd = .detach)
    (hg : getClient w r.remoteProcId r.token = some i) :
    DetachEffect w x r.remoteProcId i (clientRequestHandler w x r).1 ∧
      (clientRequestHandler w x r).2.status = sok := by
  obtain ⟨hr,hm⟩ := hw
  obtain ⟨hat,hcalls,hi,hh,hp⟩ := releaseCore_effect w x r.remoteProcId
  have hready : getHandle (releaseCore w x r.remoteProcId).server = sok := by
    rw [getHandle,hi,hr]
    rfl
  unfold clientRequestHandler
  simp only [hc,hg,detachHandlerCb,hr,hm,if_true,respond,freeClient,hready]
  refine ⟨?_,trivial⟩
  constructor
  · rw [client_modifyClient_core,client_releaseCore]
  · intro core' hne
    ext j
    rw [client_modifyClient_of_ne _ _ (Or.inl hne),client_releaseCore]
  · intro core'
    rw [refCnt_modifyClient,refCnt_releaseCore]
  · exact hat
  · exact hcalls
  · exact hi
  · exact hh
  · exact congrArg (List.map assignment) hp

/-- Asking for the offered ports changes nothing. -/
theorem virtPortInfo_unchanged (hc : r.cmd = .virtPortInfo) :
    (clientRequestHandler w x r).1 = w := by
  unfold clientRequestHandler
  rw [hc]

/-- A teardown confirmation marks at most one client object. -/
theorem teardownCompletion_world (hc : r.cmd = .teardownCompletion) :
    (clientRequestHandler w x r).1 = w ∨
      ∃ i, getClient w r.remoteProcId r.token = some i ∧
        (clientRequestHandler w x r).1 =
          w.modifyClient r.remoteProcId i fun c => { c with isIdle := true } := by
  unfold clientRequestHandler
  cases hg : getClient w r.remoteProcId r.token with
  | none => simp [hc]
  | some i =>
    right
    refine ⟨i,rfl,?_⟩
    simp [hc]

end Handler

/-- A request that took no slot and freed none: client objects keep
everything but their idle marks. -/
structure QuietEffect (w w' : World procs) : Prop where
  /-- Client objects up to the idle mark. -/
  client : ∀ core i, w'.client core i =
    { w.client core i with isIdle := (w'.client core i).isIdle }
  /-- Reference counts. -/
  refCnt : ∀ core, w'.refCnt core = w.refCnt core
  /-- Driver side. -/
  platform : w'.platform = w.platform
  /-- Readiness. -/
  initDone : w'.server.initDone = w.server.initDone
  /-- Command interface. -/
  hMcmCmdIf : w'.server.hMcmCmdIf = w.server.hMcmCmdIf
  /-- Port assignments. -/
  assignments : w'.assignments = w.assignments

theorem QuietEffect.refl (w : World procs) : QuietEffect w w :=
  ⟨fun _ _ => rfl,fun _ => rfl,rfl,rfl,rfl,rfl⟩

theorem QuietEffect.setIdle (w : World procs) (core : Fin procs) (i : Slot) (b : Bool) :
    QuietEffect w (w.modifyClient core i fun c => { c with isIdle := b }) := by
  refine ⟨?_,fun core' => refCnt_modifyClient w core core' i _,rfl,rfl,rfl,rfl⟩
  intro core' j
  rw [client_modifyClient]
  by_cases h : core' = core ∧ j = i
  · obtain ⟨rfl,rfl⟩ := h
    rw [if_pos ⟨rfl,rfl⟩]
  · rw [if_neg h]

/-- Everything a request can do on a ready server: it takes a slot for an
attach, frees one for a detach, or is quiet. A quiet attach found no free
slot and a quiet detach no client, and both are answered with an error. -/
theorem request_cases {w : World procs} (x : Outcomes) (r : Request procs) (hw : Ready w) :
    (∃ v ext i, r.cmd.attachPort = some (v,ext) ∧ w.hasFreeSlot r.remoteProcId ∧
      AttachEffect w x r v (attachStepsOk w x r.remoteProcId ext) i
        (clientRequestHandler w x r).1 (clientRequestHandler w x r).2) ∨
    (∃ i, r.cmd = .detach ∧ getClient w r.remoteProcId r.token = some i ∧
      (clientRequestHandler w x r).2.status = sok ∧
      DetachEffect w x r.remoteProcId i (clientRequestHandler w x r).1) ∨
    (QuietEffect w (clientRequestHandler w x r).1 ∧
      (∀ v ext, r.cmd.attachPort = some (v,ext) → ¬ w.hasFreeSlot r.remoteProcId ∧
        (clientRequestHandler w x r).2.status = ealloc) ∧
      (r.cmd = .detach → getClient w r.remoteProcId r.token = none ∧
        (clientRequestHandler w x r).2.status = einvalidParams)) := by
  by_cases hd : r.cmd = .detach
  · have hna : r.cmd.attachPort = none := by rw [hd]; rfl
    cases hg : getClient w r.remoteProcId r.token with
    | none =>
      obtain ⟨hsame,hst⟩ := detach_unresolved (x := x) hd hg
      refine Or.inr (Or.inr ⟨?_,?_,fun _ => ⟨rfl,hst⟩⟩)
      · rw [hsame]
        exact QuietEffect.refl w
      · intro v ext hc
        simp [hna] at hc
    | some i =>
      obtain ⟨he,hst⟩ := detach_effect (x := x) hw hd hg
      exact Or.inr (Or.inl ⟨i,hd,rfl,hst,he⟩)
  · cases ha : r.cmd.attachPort with
    | some p =>
      obtain ⟨v,ext⟩ := p
      by_cases hf : w.hasFreeSlot r.remoteProcId
      · obtain ⟨i,he⟩ := attach_effect (x := x) hw.1 ha hf
        exact Or.inl ⟨v,ext,i,rfl,hf,he⟩
      · obtain ⟨hsame,hst⟩ := attach_full (x := x) ha hf
        refine Or.inr (Or.inr ⟨?_,fun _ _ _ => ⟨hf,hst⟩,fun h => absurd h hd⟩)
        rw [hsame]
        exact QuietEffect.refl w
    | none =>
      refine Or.inr (Or.inr ⟨?_,fun _ _ hc => by simp at hc,fun h => absurd h hd⟩)
      cases hcmd : r.cmd with
      | virtPortInfo =>
        rw [virtPortInfo_unchanged hcmd]
        exact QuietEffect.refl w
      | teardownCompletion =>
        rcases teardownCompletion_world (w := w) (x := x) hcmd with h | ⟨i,-,h⟩
        · rw [h]
          exact QuietEffect.refl w
        · rw [h]
          exact QuietEffect.setIdle w r.remoteProcId i true
      | attach v => simp [hcmd,Cmd.attachPort] at ha
      | attachExt v => simp [hcmd,Cmd.attachPort] at ha
      | detach => exact absurd hcmd hd

/-- A request that changes no slot and succeeds is neither an attach nor a
detach. -/
theorem quiet_success {w : World procs} {x : Outcomes} {r : Request procs}
    (ha : ∀ v ext, r.cmd.attachPort = some (v,ext) → ¬ w.hasFreeSlot r.remoteProcId ∧
      (clientRequestHandler w x r).2.status = ealloc)
    (hd : r.cmd = .detach → getClient w r.remoteProcId r.token = none ∧
      (clientRequestHandler w x r).2.status = einvalidParams)
    (hst : (clientRequestHandler w x r).2.status = sok) :
    r.cmd.attachPort = none ∧ r.cmd ≠ .detach := by
  constructor
  · cases hc : r.cmd.attachPort with
    | none => rfl
    | some p => exact absurd ((ha p.1 p.2 hc).2.symm.trans hst) ealloc_ne_sok
  · intro hdet
    exact einvalidParams_ne_sok ((hd hdet).2.symm.trans hst)

/-- One request together with what the driver answers while it is served. -/
structure Event (procs : ℕ) where
  /-- Results of the external calls. -/
  outcomes : Outcomes
  /-- Request served. -/
  request : Request procs

/-- World after one event. -/
def handle (w : World procs) (e : Event procs) : World procs :=
  (clientRequestHandler w e.outcomes e.request).1

/-- Response to one event. -/
def answer (w : World procs) (e : Event procs) : Response :=
  (clientRequestHandler w e.outcomes e.request).2

/-- No request takes the server out of service. -/
theorem ready_handle {w : World procs} {e : Event procs} (hw : Ready w) :
    Ready (handle w e) := by
  rcases request_cases e.outcomes e.request hw with
    ⟨v,ext,i,-,-,h⟩ | ⟨i,-,-,-,h⟩ | ⟨h,-,-⟩
  · exact ⟨h.initDone.trans hw.1,h.hMcmCmdIf.trans hw.2⟩
  · exact ⟨h.initDone.trans hw.1,h.hMcmCmdIf.trans hw.2⟩
  · exact ⟨h.initDone.trans hw.1,h.hMcmCmdIf.trans hw.2⟩

/-- Driver answers that succeed, with transmit units given per priority. -/
def plainOutcomes (txMtu : Fin enetPriNum → U32) : Outcomes where
  coreAttachOk := true
  coreAttachInfo := ⟨1#32,1518#32,txMtu⟩
  rxFlowStatus := sok
  rxFlowIdxBase := 0#32
  rxFlowIdxOffset := 4#32
  startFlowIdx := 0#32
  txChStatus := sok
  txPsilDstId := 0xCA01#32
  macStatus := sok
  macAddr := ⟨0x70#8,0xFF#8,0x76#8,0x1D#8,0x92#8,0xC1#8⟩
  rxChPeerId := 0x4A00#32
  coreDetachOk := true

end EthernetFirmware.ProxyServerRequests
