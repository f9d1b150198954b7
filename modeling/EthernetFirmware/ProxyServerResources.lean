import Mathlib.Data.List.Basic
import EthernetFirmware.ProxyServerIpv4

/-!
# Resource requests of the clients

ALLOC_TX, ALLOC_RX, ALLOC_MAC and their inverses. The resource manager
belongs to the driver: what its calls return are inputs, and what it has
given to a core is recorded on the platform side. A request finds its
client by token; an allocation adds to what the core has, and a free takes
the named resource back.
-/

namespace EthernetFirmware.ProxyServerResources

open Function RemoteConfig ProxyServerClients ProxyServerRequests ProxyServerIpv4

/-- `CPSWPROXY_CLIENT_INVALID_FLOW_IDX_OFFSET`. -/
def invalidFlowIdxOffset : U32 := 0xFF#32

/-- What the resource manager gives to a core. -/
inductive Resource where
  /-- A receive flow, by its index base and offset. -/
  | rxFlow (base offset : U32)
  /-- A transmit channel, by its peer destination thread. -/
  | txCh (psilDstId : U32)
  /-- A MAC address. -/
  | mac (macAddr : MacAddr)
  deriving DecidableEq

variable {procs : ℕ}

/-- The resource manager has given the resource to the core. -/
def allocated (p : Platform procs) (core : Fin procs) : Resource → Bool
  | .rxFlow base offset => decide ((core,base,offset) ∈ p.rxFlows)
  | .txCh psilDstId => decide ((core,psilDstId) ∈ p.txChs)
  | .mac macAddr => decide ((core,macAddr) ∈ p.macs)

/-- The resource manager takes the chosen resources of a core back. -/
def takeBack (core : Fin procs) (chosen : Resource → Bool) (p : Platform procs) :
    Platform procs :=
  { p with
    rxFlows := p.rxFlows.filter fun f => !(decide (f.1 = core) && chosen (.rxFlow f.2.1 f.2.2))
    txChs := p.txChs.filter fun f => !(decide (f.1 = core) && chosen (.txCh f.2))
    macs := p.macs.filter fun f => !(decide (f.1 = core) && chosen (.mac f.2)) }

/-- What a request that only allocates has added to the resource manager. -/
def granted (p p' : Platform procs) : List Resource :=
  ((p'.rxFlows.drop p.rxFlows.length).map fun f => .rxFlow f.2.1 f.2.2) ++
    ((p'.txChs.drop p.txChs.length).map fun f => .txCh f.2) ++
    ((p'.macs.drop p.macs.length).map fun f => .mac f.2)

/-- What the external calls return while a resource request is served. -/
structure ResourceOutcomes extends Outcomes where
  /-- Statuses of the custom policers set or deleted, in order. -/
  policerStatus : List Status
  /-- Status of the call that frees the resource. -/
  freeStatus : Status
  /-- The bytes at address zero, which a freed MAC address is copied from. -/
  bytesAtNull : MacAddr

/-- Requests about resources. -/
inductive ResourceCmd where
  /-- `ETHREMOTECFG_CMD_ALLOC_TX`. -/
  | allocTx (chRelPriority : U32)
  /-- `ETHREMOTECFG_CMD_ALLOC_RX`. -/
  | allocRx (flowIdx : U32)
  /-- `ETHREMOTECFG_CMD_ALLOC_MAC`. -/
  | allocMac
  /-- `ETHREMOTECFG_CMD_FREE_TX`. -/
  | freeTx (txPsilDstId : U32)
  /-- `ETHREMOTECFG_CMD_FREE_RX`. -/
  | freeRx (rxFlowIdxBase rxFlowIdxOffset : U32)
  /-- `ETHREMOTECFG_CMD_FREE_MAC`. -/
  | freeMac (macAddr : MacAddr)

/-- Configuration of a virtual port. -/
def findCfg (s : Server procs) (virtPort : U32) : Option VirtPortCfg :=
  s.virtPortCfg.find? fun c => c.portId.val == virtPort

/-- Whether `CpswProxyServer_getAbsTxChNumber` finds a transmit channel;
which one it is matters to the driver only. -/
def hasAbsTxChNumber (s : Server procs) (chRelPriority virtPort : U32) : Bool :=
  match findCfg s virtPort with
  | some c => decide (chRelPriority < c.numTxCh)
  | none => false

/-- `CpswProxyServer_getRxFlowInfo`. The failure status set at the start is
overwritten by the handle look-up. -/
def getRxFlowInfo (s : Server procs) (virtPort relFlowIdx : U32) : Status :=
  match findCfg s virtPort with
  | some c => if relFlowIdx < c.numRxFlow then sok else ebadArgs
  | none => getHandle s

/-- `CpswProxyServer_getRelFlowIdx` on an out parameter that holds `old`.
An unknown flow is reported with the status of the handle look-up and
leaves the parameter as it is. -/
def getRelFlowIdx (s : Server procs) (virtPort rxFlowIdxOffset old : U32) : Status × U32 :=
  match (findCfg s virtPort).bind fun c => c.rxFlowIdxOffset.idxOf? rxFlowIdxOffset with
  | some j => (sok,BitVec.ofNat 32 j)
  | none => (getHandle s,old)

/-- Status after a loop in which each round overwrites it. -/
def lastStatus (status : Status) (rounds : List Status) : Status := rounds.getLastD status

/-- Save a flow offset in the configuration of a virtual port. -/
def storeRxFlowOffset (w : World procs) (virtPort relFlowIdx rxFlowIdxOffset : U32) :
    World procs :=
  { w with server := { w.server with
      virtPortCfg :=
        saveRxFlowOffset virtPort relFlowIdx.toNat rxFlowIdxOffset w.server.virtPortCfg } }

/-- The resource manager takes the chosen resources of a core back. -/
def freeResource (w : World procs) (core : Fin procs) (chosen : Resource → Bool) :
    World procs := { w with platform := takeBack core chosen w.platform }

/-- The resource is a receive flow with the offset. -/
def isFlowAt (rxFlowIdxOffset : U32) : Resource → Bool
  | .rxFlow _ offset => decide (offset = rxFlowIdxOffset)
  | _ => false

section Handlers

variable (w : World procs) (x : ResourceOutcomes) (core : Fin procs) (i : Slot)

/-- `CpswProxyServer_allocTxHandlerCb`. -/
def allocTxHandlerCb (chRelPriority : U32) : Handled procs :=
  if getHandle w.server = sok then
    if hasAbsTxChNumber w.server chRelPriority (w.client core i).virtPort then
      (allocTxCh x.toOutcomes core w {}).andThen fun w out =>
        ⟨w.modifyClient core i fun c => { c with psilDstId := x.txPsilDstId },sok,out⟩
    else ⟨w,ebadArgs,{}⟩
  else ⟨w,getHandle w.server,{}⟩

/-- `CpswProxyServer_allocRxHandlerCb`. The offset is saved before the flow
index is checked; an index beyond the flows of the port is not modelled. -/
def allocRxHandlerCb (relFlowIdx : U32) : Handled procs :=
  if getHandle w.server = sok then
    if x.rxFlowStatus = sok then
      let w1 := { w with platform := { w.platform with
        rxFlows := w.platform.rxFlows ++ [(core,x.rxFlowIdxBase,x.rxFlowIdxOffset)] } }
      let out : AttachParams :=
        { rxPsilSrcId := some x.rxChPeerId, rxFlowIdxBase := some x.rxFlowIdxBase,
          rxFlowIdxOffset := some x.rxFlowIdxOffset }
      if validateStartIdx x.toOutcomes x.rxFlowIdxBase = sok then
        let virtPort := (w.client core i).virtPort
        let w2 := w1.modifyClient core i fun c =>
          { c with flowIdxBase := x.rxFlowIdxBase, flowIdxOffset := x.rxFlowIdxOffset }
        let w3 := storeRxFlowOffset w2 virtPort relFlowIdx x.rxFlowIdxOffset
        let status := getRxFlowInfo w3.server virtPort relFlowIdx
        ⟨w3,if status = sok then lastStatus status x.policerStatus else status,out⟩
      else ⟨w1,validateStartIdx x.toOutcomes x.rxFlowIdxBase,out⟩
    else ⟨w,x.rxFlowStatus,{ rxPsilSrcId := some x.rxChPeerId }⟩
  else ⟨w,getHandle w.server,{}⟩

/-- `CpswProxyServer_allocMacHandlerCb`. -/
def allocMacHandlerCb : Handled procs :=
  if getHandle w.server = sok then
    (allocMac x.toOutcomes core w {}).andThen fun w out =>
      ⟨w.modifyClient core i fun c => { c with macAddr := x.macAddr },sok,out⟩
  else ⟨w,getHandle w.server,{}⟩

/-- `CpswProxyServer_freeTxHandlerCb`. -/
def freeTxHandlerCb (pTxPsilDstId : U32) : Handled procs :=
  if getHandle w.server = sok then
    if x.freeStatus = sok then
      ⟨(freeResource w core fun r => decide (r = .txCh pTxPsilDstId)).modifyClient core i
        fun c => { c with psilDstId := 0#32 },sok,{}⟩
    else ⟨w,x.freeStatus,{}⟩
  else ⟨w,getHandle w.server,{}⟩

/-- `CpswProxyServer_freeRxHandlerCb`. The custom policers are deleted
whether the flow's information was found or not, and the status of the
last one decides whether the flow is freed. -/
def freeRxHandlerCb (rxFlowIdxBase rxFlowIdxOffset : U32) : Handled procs :=
  if getHandle w.server = sok then
    let virtPort := (w.client core i).virtPort
    let rel := getRelFlowIdx w.server virtPort rxFlowIdxOffset 0#32
    let status :=
      if rel.1 = sok then lastStatus (getRxFlowInfo w.server virtPort rel.2) x.policerStatus
      else rel.1
    let w1 :=
      if rel.1 = sok then storeRxFlowOffset w virtPort rel.2 invalidFlowIdxOffset else w
    if status = sok then
      if validateStartIdx x.toOutcomes rxFlowIdxBase = sok then
        if x.freeStatus = sok then
          ⟨(freeResource w1 core (isFlowAt rxFlowIdxOffset)).modifyClient core i
            fun c => { c with flowIdxBase := 0#32, flowIdxOffset := 0#32 },sok,{}⟩
        else ⟨w1,x.freeStatus,{}⟩
      else ⟨w1,validateStartIdx x.toOutcomes rxFlowIdxBase,{}⟩
    else ⟨w1,status,{}⟩
  else ⟨w,getHandle w.server,{}⟩

/-- `CpswProxyServer_freeMacHandlerCb`. -/
def freeMacHandlerCb (macAddr : MacAddr) : Handled procs :=
  if getHandle w.server = sok then
    if x.freeStatus = sok then
      ⟨(freeResource w core fun r => decide (r = .mac macAddr)).modifyClient core i
        -- The copy reads from address zero instead of clearing the field.
        fun c => { c with macAddr := x.bytesAtNull },sok,{}⟩
    else ⟨w,x.freeStatus,{}⟩
  else ⟨w,getHandle w.server,{}⟩

/-- `CpswProxyServer_clientRequestHandler` for the requests about resources. -/
def resourceRequestHandler (c : Client procs) (cmd : ResourceCmd) : Handled procs :=
  match getClient w c.core c.token with
  | none => ⟨w,efail,{}⟩
  | some i =>
    match cmd with
    | .allocTx chRelPriority => allocTxHandlerCb w x c.core i chRelPriority
    | .allocRx flowIdx => allocRxHandlerCb w x c.core i flowIdx
    | .allocMac => allocMacHandlerCb w x c.core i
    | .freeTx txPsilDstId => freeTxHandlerCb w x c.core i txPsilDstId
    | .freeRx base offset => freeRxHandlerCb w x c.core i base offset
    | .freeMac macAddr => freeMacHandlerCb w x c.core i macAddr

end Handlers

/-- A request that leaves the slots of the cores in use as they are. -/
structure KeepsSlots (w w' : World procs) : Prop where
  /-- Slots in use. -/
  inUse : ∀ core j, (w'.client core j).inUse = (w.client core j).inUse
  /-- Reference counts. -/
  refCnt : ∀ core, w'.refCnt core = w.refCnt core
  /-- Readiness. -/
  initDone : w'.server.initDone = w.server.initDone
  /-- Command interface. -/
  hMcmCmdIf : w'.server.hMcmCmdIf = w.server.hMcmCmdIf

/-- The resource manager has given and taken nothing. -/
structure SameLists (p p' : Platform procs) : Prop where
  /-- Receive flows. -/
  rxFlows : p'.rxFlows = p.rxFlows
  /-- Transmit channels. -/
  txChs : p'.txChs = p.txChs
  /-- MAC addresses. -/
  macs : p'.macs = p.macs

/-- The resource manager has given more to one core and taken nothing. -/
structure Grows (core : Fin procs) (p p' : Platform procs) : Prop where
  /-- Receive flows. -/
  rxFlows : ∃ fs, p'.rxFlows = p.rxFlows ++ fs ∧ ∀ f ∈ fs, f.1 = core
  /-- Transmit channels. -/
  txChs : ∃ fs, p'.txChs = p.txChs ++ fs ∧ ∀ f ∈ fs, f.1 = core
  /-- MAC addresses. -/
  macs : ∃ fs, p'.macs = p.macs ++ fs ∧ ∀ f ∈ fs, f.1 = core

section Platform

variable {p p' p'' : Platform procs} {core core' : Fin procs} {r : Resource}
  {chosen : Resource → Bool}

/-- A core still has what was not chosen to be taken back. -/
theorem allocated_takeBack_iff : allocated (takeBack core chosen p) core' r = true ↔
    allocated p core' r = true ∧ ¬ (core' = core ∧ chosen r = true) := by
  cases r <;> simp [allocated,takeBack,List.mem_filter,imp_iff_not_or]

theorem SameLists.refl (p : Platform procs) : SameLists p p := ⟨rfl,rfl,rfl⟩

theorem SameLists.grows (h : SameLists p p') : Grows core p p' :=
  ⟨⟨[],by simp [h.rxFlows],by simp⟩,⟨[],by simp [h.txChs],by simp⟩,
    ⟨[],by simp [h.macs],by simp⟩⟩

theorem SameLists.allocated (h : SameLists p p') (core : Fin procs) (r : Resource) :
    allocated p' core r = allocated p core r := by
  cases r <;> simp [ProxyServerResources.allocated,h.rxFlows,h.txChs,h.macs]

theorem SameLists.granted (h : SameLists p p') : granted p p' = [] := by
  simp [ProxyServerResources.granted,h.rxFlows,h.txChs,h.macs]

/-- A manager that took resources back granted none. -/
theorem SameLists.granted_takeBack (h : SameLists p p') :
    ProxyServerResources.granted p (takeBack core chosen p') = [] := by
  simp only [ProxyServerResources.granted,takeBack,h.rxFlows,h.txChs,h.macs]
  rw [List.drop_eq_nil_of_le (List.length_filter_le _ _),
    List.drop_eq_nil_of_le (List.length_filter_le _ _),
    List.drop_eq_nil_of_le (List.length_filter_le _ _)]
  rfl

theorem Grows.refl : Grows core p p := (SameLists.refl p).grows

theorem Grows.trans (h : Grows core p p') (h' : Grows core p' p'') : Grows core p p'' := by
  have happend : ∀ {β : Type} {a b c : List (Fin procs × β)},
      (∃ fs, b = a ++ fs ∧ ∀ f ∈ fs, f.1 = core) →
      (∃ gs, c = b ++ gs ∧ ∀ g ∈ gs, g.1 = core) →
      ∃ fs, c = a ++ fs ∧ ∀ f ∈ fs, f.1 = core := by
    rintro β a b c ⟨fs,rfl,hfs⟩ ⟨gs,rfl,hgs⟩
    refine ⟨fs ++ gs,List.append_assoc a fs gs,fun f hf => ?_⟩
    rcases List.mem_append.mp hf with hf | hf
    · exact hfs f hf
    · exact hgs f hf
  exact ⟨happend h.rxFlows h'.rxFlows,happend h.txChs h'.txChs,happend h.macs h'.macs⟩

/-- What a core has in a list that grew is old or was given to the core. -/
theorem mem_grown {β : Type} {fs gs : List (Fin procs × β)} {b : β}
    (hgs : ∀ g ∈ gs, g.1 = core) (h : (core',b) ∈ fs ++ gs) :
    (core',b) ∈ fs ∨ core' = core ∧ (core',b) ∈ gs := by
  rcases List.mem_append.mp h with hold | hnew
  · exact Or.inl hold
  · exact Or.inr ⟨hgs _ hnew,hnew⟩

/-- What a core has after the manager gave more: what it had, or what was
granted to it. -/
theorem Grows.allocated_cases (h : Grows core p p') (hr : allocated p' core' r = true) :
    allocated p core' r = true ∨ core' = core ∧ r ∈ granted p p' := by
  obtain ⟨⟨fs,hfs,hfcore⟩,⟨ts,hts,htcore⟩,⟨ms,hms,hmcore⟩⟩ := h
  unfold granted
  rw [hfs,hts,hms,List.drop_left,List.drop_left,List.drop_left]
  cases r with
  | rxFlow base offset =>
    simp only [allocated,hfs,decide_eq_true_eq] at hr ⊢
    rcases mem_grown hfcore hr with hold | ⟨hcore,hnew⟩
    · exact Or.inl hold
    · exact Or.inr ⟨hcore,by simpa using ⟨core',hnew⟩⟩
  | txCh d =>
    simp only [allocated,hts,decide_eq_true_eq] at hr ⊢
    rcases mem_grown htcore hr with hold | ⟨hcore,hnew⟩
    · exact Or.inl hold
    · exact Or.inr ⟨hcore,by simpa using ⟨core',hnew⟩⟩
  | mac a =>
    simp only [allocated,hms,decide_eq_true_eq] at hr ⊢
    rcases mem_grown hmcore hr with hold | ⟨hcore,hnew⟩
    · exact Or.inl hold
    · exact Or.inr ⟨hcore,by simpa using ⟨core',hnew⟩⟩

end Platform

section Effects

variable {w w' w'' : World procs} {x : ResourceOutcomes} {core : Fin procs} {i : Slot}

theorem KeepsSlots.refl (w : World procs) : KeepsSlots w w :=
  ⟨fun _ _ => rfl,fun _ => rfl,rfl,rfl⟩

theorem KeepsSlots.trans (h : KeepsSlots w w') (h' : KeepsSlots w' w'') : KeepsSlots w w'' :=
  ⟨fun core j => (h'.inUse core j).trans (h.inUse core j),
    fun core => (h'.refCnt core).trans (h.refCnt core),h'.initDone.trans h.initDone,
    h'.hMcmCmdIf.trans h.hMcmCmdIf⟩

/-- Rewriting a client object without its use keeps the slots. -/
theorem KeepsSlots.modifyClient (h : KeepsSlots w w') (core : Fin procs) (i : Slot)
    (f : ClientObj → ClientObj) (hf : ∀ c, (f c).inUse = c.inUse) :
    KeepsSlots w (w'.modifyClient core i f) := by
  refine h.trans ⟨?_,fun core' => refCnt_modifyClient w' core core' i f,rfl,rfl⟩
  intro core' j
  rw [client_modifyClient]
  by_cases hij : core' = core ∧ j = i
  · obtain ⟨rfl,rfl⟩ := hij
    rw [if_pos ⟨rfl,rfl⟩,hf]
  · rw [if_neg hij]

theorem KeepsSlots.of_sameCores (h : SameCores w w') : KeepsSlots w w' :=
  ⟨fun core j => by rw [h.client core],h.refCnt,h.initDone,h.hMcmCmdIf⟩

/-- What a resource request does: slots stay as they are, and the manager
gives more to the client's core or takes some of its resources back. -/
structure ResourceEffect (core : Fin procs) (w w' : World procs) : Prop where
  /-- Slots. -/
  slots : KeepsSlots w w'
  /-- Resource manager. -/
  platform : Grows core w.platform w'.platform ∨
    ∃ chosen, w'.platform = takeBack core chosen w.platform

theorem ResourceEffect.refl (w : World procs) : ResourceEffect core w w :=
  ⟨KeepsSlots.refl w,Or.inl Grows.refl⟩

theorem grows_allocTxCh (x : Outcomes) (out : AttachParams) :
    Grows core w.platform (allocTxCh x core w out).world.platform := by
  unfold allocTxCh
  split
  · exact ⟨⟨[],by simp⟩,⟨[(core,x.txPsilDstId)],by simp⟩,⟨[],by simp⟩⟩
  · exact Grows.refl

theorem grows_allocMac (x : Outcomes) (out : AttachParams) :
    Grows core w.platform (allocMac x core w out).world.platform := by
  unfold allocMac
  split
  · exact ⟨⟨[],by simp⟩,⟨[],by simp⟩,⟨[(core,x.macAddr)],by simp⟩⟩
  · exact Grows.refl

theorem grows_allocRxFlow (x : Outcomes) (out : AttachParams) :
    Grows core w.platform (allocRxFlow x core i w out).world.platform := by
  unfold allocRxFlow
  dsimp only
  split_ifs
  · exact ⟨⟨[(core,x.rxFlowIdxBase,x.rxFlowIdxOffset)],by simp⟩,⟨[],by simp⟩,⟨[],by simp⟩⟩
  · exact ⟨⟨[(core,x.rxFlowIdxBase,x.rxFlowIdxOffset)],by simp⟩,⟨[],by simp⟩,⟨[],by simp⟩⟩
  · exact Grows.refl

/-- A stage that only gives more after one that did. -/
theorem Grows.andThen {p : Platform procs} {h : Handled procs}
    {f : World procs → AttachParams → Handled procs} (hg : Grows core p h.world.platform)
    (hf : ∀ w out, Grows core w.platform (f w out).world.platform) :
    Grows core p (h.andThen f).world.platform := by
  unfold Handled.andThen
  split
  · exact hg.trans (hf h.world h.out)
  · exact hg

/-- A stage that allocates and then rewrites the client's fields. -/
theorem ResourceEffect.allocated {h : Handled procs} (hs : SameCores w h.world)
    (hg : Grows core w.platform h.world.platform) (f : ClientObj → ClientObj)
    (hf : ∀ c, (f c).inUse = c.inUse) :
    ResourceEffect core w
      (h.andThen fun w out => ⟨w.modifyClient core i f,sok,out⟩).world := by
  have hkeep := KeepsSlots.of_sameCores hs
  refine ⟨?_,Or.inl (hg.andThen fun w out => Grows.refl)⟩
  unfold Handled.andThen
  split
  · exact hkeep.modifyClient core i f hf
  · exact hkeep

theorem allocTx_effect (chRelPriority : U32) :
    ResourceEffect core w (allocTxHandlerCb w x core i chRelPriority).world := by
  unfold allocTxHandlerCb
  split_ifs
  · refine ResourceEffect.allocated (allocTxCh_sameCores _) (grows_allocTxCh _ _) _ ?_
    exact fun _ => rfl
  · exact ResourceEffect.refl w
  · exact ResourceEffect.refl w

theorem allocMac_effect :
    ResourceEffect core w (allocMacHandlerCb w x core i).world := by
  unfold allocMacHandlerCb
  split_ifs
  · refine ResourceEffect.allocated (allocMac_sameCores _) (grows_allocMac _ _) _ ?_
    exact fun _ => rfl
  · exact ResourceEffect.refl w

theorem allocRx_effect (relFlowIdx : U32) :
    ResourceEffect core w (allocRxHandlerCb w x core i relFlowIdx).world := by
  have hgrow : Grows core w.platform { w.platform with
      rxFlows := w.platform.rxFlows ++ [(core,x.rxFlowIdxBase,x.rxFlowIdxOffset)] } :=
    ⟨⟨[(core,x.rxFlowIdxBase,x.rxFlowIdxOffset)],by simp⟩,⟨[],by simp⟩,⟨[],by simp⟩⟩
  have hkeep : KeepsSlots w { w with platform := { w.platform with
      rxFlows := w.platform.rxFlows ++ [(core,x.rxFlowIdxBase,x.rxFlowIdxOffset)] } } :=
    ⟨fun _ _ => rfl,fun _ => rfl,rfl,rfl⟩
  unfold allocRxHandlerCb
  split
  · split
    · dsimp only
      by_cases hv : validateStartIdx x.toOutcomes x.rxFlowIdxBase = sok
      · rw [if_pos hv]
        refine ⟨?_,Or.inl hgrow⟩
        have hslot := hkeep.modifyClient core i (fun c =>
          { c with flowIdxBase := x.rxFlowIdxBase, flowIdxOffset := x.rxFlowIdxOffset })
          fun _ => rfl
        exact hslot.trans ⟨fun _ _ => rfl,fun _ => rfl,rfl,rfl⟩
      · rw [if_neg hv]
        exact ⟨hkeep,Or.inl hgrow⟩
    · exact ResourceEffect.refl w
  · exact ResourceEffect.refl w

/-- Taking resources of a core back and rewriting the client's fields. -/
theorem ResourceEffect.freed (h : KeepsSlots w w') (hp : w'.platform = w.platform)
    (chosen : Resource → Bool) (f : ClientObj → ClientObj) (hf : ∀ c, (f c).inUse = c.inUse) :
    ResourceEffect core w ((freeResource w' core chosen).modifyClient core i f) := by
  have hfree : KeepsSlots w (freeResource w' core chosen) :=
    h.trans ⟨fun _ _ => rfl,fun _ => rfl,rfl,rfl⟩
  refine ⟨hfree.modifyClient core i f hf,Or.inr ⟨chosen,?_⟩⟩
  rw [platform_modifyClient,freeResource,hp]

theorem freeTx_effect (pTxPsilDstId : U32) :
    ResourceEffect core w (freeTxHandlerCb w x core i pTxPsilDstId).world := by
  unfold freeTxHandlerCb
  split_ifs
  · dsimp only
    refine ResourceEffect.freed (KeepsSlots.refl w) rfl _ _ ?_
    exact fun _ => rfl
  · exact ResourceEffect.refl w
  · exact ResourceEffect.refl w

theorem freeMac_effect (macAddr : MacAddr) :
    ResourceEffect core w (freeMacHandlerCb w x core i macAddr).world := by
  unfold freeMacHandlerCb
  split_ifs
  · dsimp only
    refine ResourceEffect.freed (KeepsSlots.refl w) rfl _ _ ?_
    exact fun _ => rfl
  · exact ResourceEffect.refl w
  · exact ResourceEffect.refl w

theorem freeRx_effect (rxFlowIdxBase rxFlowIdxOffset : U32) :
    ResourceEffect core w (freeRxHandlerCb w x core i rxFlowIdxBase rxFlowIdxOffset).world := by
  unfold freeRxHandlerCb
  split
  · dsimp only
    generalize getRelFlowIdx w.server (w.client core i).virtPort rxFlowIdxOffset 0#32 = rel
    -- The world after the flow's offset was given up.
    generalize hw1 : (if rel.1 = sok then storeRxFlowOffset w (w.client core i).virtPort rel.2
      invalidFlowIdxOffset else w) = w1
    have hkeep : KeepsSlots w w1 := by
      rw [← hw1]
      split
      · exact ⟨fun _ _ => rfl,fun _ => rfl,rfl,rfl⟩
      · exact KeepsSlots.refl w
    have hplat : w1.platform = w.platform := by
      rw [← hw1]
      split <;> rfl
    have hsame : ResourceEffect core w w1 := ⟨hkeep,Or.inl (by rw [hplat]; exact Grows.refl)⟩
    generalize (if rel.1 = sok then _ else _ : Status) = status
    split_ifs
    · dsimp only
      refine ResourceEffect.freed hkeep hplat _ _ ?_
      exact fun _ => rfl
    · exact hsame
    · exact hsame
    · exact hsame
  · exact ResourceEffect.refl w

/-- What any resource request does. -/
theorem resourceRequest_effect (w : World procs) (x : ResourceOutcomes) (c : Client procs)
    (cmd : ResourceCmd) : ResourceEffect c.core w (resourceRequestHandler w x c cmd).world := by
  unfold resourceRequestHandler
  cases getClient w c.core c.token with
  | none => exact ResourceEffect.refl w
  | some i =>
    cases cmd with
    | allocTx chRelPriority => exact allocTx_effect chRelPriority
    | allocRx flowIdx => exact allocRx_effect flowIdx
    | allocMac => exact allocMac_effect
    | freeTx txPsilDstId => exact freeTx_effect txPsilDstId
    | freeRx base offset => exact freeRx_effect base offset
    | freeMac macAddr => exact freeMac_effect macAddr

theorem sameLists_referCore (w : World procs) (x : Outcomes) (core : Fin procs) :
    SameLists w.platform (referCore w x core).platform := by
  unfold referCore
  split <;> exact ⟨rfl,rfl,rfl⟩

theorem sameLists_releaseCore (w : World procs) (x : Outcomes) (core : Fin procs) :
    SameLists w.platform (releaseCore w x core).platform := by
  unfold releaseCore
  dsimp only
  split <;> exact ⟨rfl,rfl,rfl⟩

theorem sameLists_attachHandlerCb (w : World procs) (x : Outcomes) (core : Fin procs) (i : Slot)
    (v : U32) (wantNums : Bool) :
    SameLists w.platform (attachHandlerCb w x core i v wantNums).world.platform := by
  unfold attachHandlerCb
  split
  · dsimp only
    split
    · exact sameLists_referCore w x core
    · exact sameLists_referCore w x core
  · exact SameLists.refl w.platform

/-- An extended attach only allocates, also when it fails. -/
theorem grows_attachExtHandlerCb (w : World procs) (x : Outcomes) (core : Fin procs) (i : Slot)
    (v : U32) : Grows core w.platform (attachExtHandlerCb w x core i v).world.platform := by
  unfold attachExtHandlerCb
  have h : Grows core w.platform (attachHandlerCb w x core i v false).world.platform :=
    (sameLists_attachHandlerCb w x core i v false).grows
  refine Grows.andThen (Grows.andThen (Grows.andThen (Grows.andThen (h.andThen ?_) ?_) ?_) ?_) ?_
  · exact fun w out => Grows.refl
  · exact fun w out => grows_allocRxFlow x out
  · exact fun w out => grows_allocTxCh x out
  · exact fun w out => grows_allocMac x out
  · exact fun w out => Grows.refl

/-- A slot taken for an attach, and the client identity stored in it, leave
the resource manager to the callback. -/
theorem grows_serveAttach {w : World procs} {r : ProxyServerRequests.Request procs} {v : U32}
    {callback : World procs → Slot → Handled procs}
    (hc : ∀ w i, Grows r.remoteProcId w.platform (callback w i).world.platform) :
    Grows r.remoteProcId w.platform (serveAttach w r v callback).1.platform := by
  unfold serveAttach
  cases ha : allocClient w r.remoteProcId r.remoteEndPt v with
  | none => exact Grows.refl
  | some a =>
    obtain ⟨i,w1⟩ := a
    obtain ⟨-,hw1⟩ := allocClient_eq_some ha
    have hplat : w1.platform = w.platform := by rw [hw1,platform_modifyClient]
    dsimp only
    rw [platform_modifyClient,← hplat]
    exact hc w1 i

/-- The resource manager after a detach that resolves. -/
theorem sameLists_detach {w : World procs} {e : Event procs} {i : Slot} (hw : Ready w)
    (hc : e.request.cmd = .detach)
    (hg : getClient w e.request.remoteProcId e.request.token = some i) :
    SameLists w.platform (handle w e).platform := by
  obtain ⟨-,-,hi,-,-⟩ := releaseCore_effect w e.outcomes e.request.remoteProcId
  have hready : getHandle (releaseCore w e.outcomes e.request.remoteProcId).server = sok := by
    rw [getHandle,hi,hw.1]
    rfl
  unfold handle clientRequestHandler
  simp only [hc,hg,detachHandlerCb,hw.1,hw.2,if_true,freeClient,hready]
  exact sameLists_releaseCore w e.outcomes e.request.remoteProcId

/-- No request about virtual ports takes a resource back by itself. -/
theorem grows_handle {w : World procs} (e : Event procs) (hw : Ready w) :
    Grows e.request.remoteProcId w.platform (handle w e).platform := by
  cases hcmd : e.request.cmd with
  | virtPortInfo =>
    rw [handle,virtPortInfo_unchanged hcmd]
    exact Grows.refl
  | attach v =>
    unfold handle clientRequestHandler
    rw [hcmd]
    exact grows_serveAttach fun w i =>
      (sameLists_attachHandlerCb w e.outcomes e.request.remoteProcId i v true).grows
  | attachExt v =>
    unfold handle clientRequestHandler
    rw [hcmd]
    exact grows_serveAttach fun w i =>
      grows_attachExtHandlerCb w e.outcomes e.request.remoteProcId i v
  | detach =>
    cases hg : getClient w e.request.remoteProcId e.request.token with
    | none =>
      rw [handle,(detach_unresolved hcmd hg).1]
      exact Grows.refl
    | some i => exact (sameLists_detach hw hcmd hg).grows
  | teardownCompletion =>
    rcases teardownCompletion_world (w := w) (x := e.outcomes) hcmd with h | ⟨i,-,h⟩
    · rw [handle,h]
      exact Grows.refl
    · rw [handle,h]
      exact Grows.refl

end Effects

end EthernetFirmware.ProxyServerResources
