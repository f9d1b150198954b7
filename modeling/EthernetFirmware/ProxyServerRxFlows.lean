import EthernetFirmware.ProxyServerResources
import EthernetFirmware.GuardedRuns

/-!
# Receive flows of the clients

ALLOC_RX and FREE_RX with the calls and writes that the resource requests
leave out: every write to the table of flow offsets of a virtual port, in
bounds or not, and the custom policers created and deleted for a flow. A build
with `ENABLE_MAC_ONLY_PORTS` and `MCU_PLUS_SDK` also saves an allocated flow for
the core's client of MAC port 2. The server keeps no record of what it has given
to a virtual port besides the table; the record of allocations here is made from
the answers.
-/

namespace EthernetFirmware.ProxyServerRxFlows

open GuardedRuns RemoteConfig ProxyServerClients ProxyServerRequests ProxyServerIpv4
  ProxyServerResources

/-- Calls for a custom policer. -/
inductive PolicerCall (μ : Type*) where
  /-- `CpswProxyServer_createCustomPolicer`. -/
  | create (policerMatch : μ) (threadId : U32)
  /-- `CpswProxyServer_deleteCustomPolicer`. -/
  | delete (policerMatch : μ)
  deriving DecidableEq

/-- A write to the flow offsets of a virtual port. -/
structure TableWrite where
  /-- Virtual port. -/
  virtPort : U32
  /-- Index in the port's table. -/
  relFlowIdx : U32
  /-- Value written. -/
  rxFlowIdxOffset : U32
  deriving DecidableEq

/-- What the external calls return, and what an uninitialised pointer to a
flow's information leads to. -/
structure FlowOutcomes (μ : Type*) extends ResourceOutcomes where
  /-- Custom policers found through the uninitialised pointer. -/
  strayPolicers : List μ

/-- Outcome of a request about receive flows. -/
structure FlowHandled (procs : ℕ) (μ : Type*) extends Handled procs where
  /-- Policer calls, in order. -/
  calls : List (PolicerCall μ)
  /-- Writes to the tables of flow offsets, in order. -/
  writes : List TableWrite

/-- Requests about receive flows, with the client's token. -/
inductive FlowEvent (μ : Type*) where
  /-- `ETHREMOTECFG_CMD_ALLOC_RX`. -/
  | allocRx (token flowIdx : U32) (x : FlowOutcomes μ)
  /-- `ETHREMOTECFG_CMD_FREE_RX`. -/
  | freeRx (token rxFlowIdxBase rxFlowIdxOffset : U32) (x : FlowOutcomes μ)

variable {procs : ℕ} {μ : Type*}

/-- Status of each policer call; a list that is too short goes on with
successes. -/
def policerRounds (x : FlowOutcomes μ) (l : List μ) : List Status :=
  (List.range l.length).map fun k => x.policerStatus.getD k sok

/-- The write that `CpswProxyServer_saveRxFlowOffset` makes. -/
def tableWrites (s : Server procs) (virtPort relFlowIdx rxFlowIdxOffset : U32) :
    List TableWrite :=
  if (findCfg s virtPort).isSome then [⟨virtPort,relFlowIdx,rxFlowIdxOffset⟩] else []

/-- `ETHREMOTECFG_MAC_PORT_2`. -/
def macPort2 : U32 := 2#32

/-- Entry of the table of flow offsets of a virtual port. -/
def tableEntry (s : Server procs) (virtPort relFlowIdx : U32) : Option U32 :=
  (findCfg s virtPort).bind fun c => c.rxFlowIdxOffset[relFlowIdx.toNat]?

section Handlers

variable (policers : U32 → U32 → List μ) (w : World procs) (x : FlowOutcomes μ)
  (core : Fin procs) (i : Slot)

/-- Custom policers that `CpswProxyServer_getRxFlowInfo` leads to. Without a
flow of the port the pointer is left uninitialised. -/
def rxFlowPolicers (s : Server procs) (virtPort relFlowIdx : U32) : List μ :=
  match findCfg s virtPort with
  | some c => if relFlowIdx < c.numRxFlow then policers virtPort relFlowIdx else x.strayPolicers
  | none => x.strayPolicers

/-- `CpswProxyServer_allocRxHandlerCb`. The offset is saved before the flow
index is checked. -/
def allocRxHandlerCb (relFlowIdx : U32) : FlowHandled procs μ :=
  if getHandle w.server = sok then
    if x.rxFlowStatus = sok then
      let w1 := { w with platform := { w.platform with
        rxFlows := w.platform.rxFlows ++ [(core,x.rxFlowIdxBase,x.rxFlowIdxOffset)] } }
      let out : AttachParams :=
        { rxPsilSrcId := some x.rxChPeerId, rxFlowIdxBase := some x.rxFlowIdxBase,
          rxFlowIdxOffset := some x.rxFlowIdxOffset }
      if validateStartIdx x.toOutcomes x.rxFlowIdxBase = sok then
        let virtPort := (w.client core i).virtPort
        let w2 := w1.modifyClient core i fun c =>
          { c with flowIdxBase := x.rxFlowIdxBase, flowIdxOffset := x.rxFlowIdxOffset }
        let w3 := storeRxFlowOffset w2 virtPort relFlowIdx x.rxFlowIdxOffset
        let writes := tableWrites w2.server virtPort relFlowIdx x.rxFlowIdxOffset
        let status := getRxFlowInfo w3.server virtPort relFlowIdx
        if status = sok then
          let l := rxFlowPolicers policers x w3.server virtPort relFlowIdx
          ⟨⟨w3,lastStatus status (policerRounds x l),out⟩,
            l.map fun p => .create p x.rxFlowIdxOffset,writes⟩
        else ⟨⟨w3,status,out⟩,[],writes⟩
      else ⟨⟨w1,validateStartIdx x.toOutcomes x.rxFlowIdxBase,out⟩,[],[]⟩
    else ⟨⟨w,x.rxFlowStatus,{ rxPsilSrcId := some x.rxChPeerId }⟩,[],[]⟩
  else ⟨⟨w,getHandle w.server,{}⟩,[],[]⟩

/-- `CpswProxyServer_freeRxHandlerCb`. The policers are deleted whether the
flow's information was found or not, and the entry is marked free before
the flow is. -/
def freeRxHandlerCb (rxFlowIdxBase rxFlowIdxOffset : U32) : FlowHandled procs μ :=
  if getHandle w.server = sok then
    let virtPort := (w.client core i).virtPort
    let rel := getRelFlowIdx w.server virtPort rxFlowIdxOffset 0#32
    if rel.1 = sok then
      let l := rxFlowPolicers policers x w.server virtPort rel.2
      let calls := l.map .delete
      let status := lastStatus (getRxFlowInfo w.server virtPort rel.2) (policerRounds x l)
      let w1 := storeRxFlowOffset w virtPort rel.2 invalidFlowIdxOffset
      let writes := tableWrites w.server virtPort rel.2 invalidFlowIdxOffset
      if status = sok then
        if validateStartIdx x.toOutcomes rxFlowIdxBase = sok then
          if x.freeStatus = sok then
            ⟨⟨(freeResource w1 core (isFlowAt rxFlowIdxOffset)).modifyClient core i
              fun c => { c with flowIdxBase := 0#32, flowIdxOffset := 0#32 },sok,{}⟩,calls,writes⟩
          else ⟨⟨w1,x.freeStatus,{}⟩,calls,writes⟩
        else ⟨⟨w1,validateStartIdx x.toOutcomes rxFlowIdxBase,{}⟩,calls,writes⟩
      else ⟨⟨w1,status,{}⟩,calls,writes⟩
    else ⟨⟨w,rel.1,{}⟩,[],[]⟩
  else ⟨⟨w,getHandle w.server,{}⟩,[],[]⟩

/-- What ALLOC_RX does behind its callback in a build with MAC-only ports: the
flow is saved for the core's client of MAC port 2, at an index that has been
checked for the port of the request only. -/
def saveForMacPort2 (relFlowIdx : U32) (h : FlowHandled procs μ) : FlowHandled procs μ :=
  if h.status = sok then
    match getClient h.world core (virtPort2Token macPort2) with
    | none => { h with status := efail }
    | some j =>
      let w1 := h.world.modifyClient core j fun c =>
        { c with flowIdxBase := x.rxFlowIdxBase, flowIdxOffset := x.rxFlowIdxOffset }
      let virtPort := (w1.client core j).virtPort
      { h with
        world := storeRxFlowOffset w1 virtPort relFlowIdx x.rxFlowIdxOffset
        writes := h.writes ++ tableWrites w1.server virtPort relFlowIdx x.rxFlowIdxOffset }
  else h

/-- ALLOC_RX of a client, in a build with or without MAC-only ports. -/
def serveAllocRx (macOnly : Bool) (relFlowIdx : U32) : FlowHandled procs μ :=
  let h := allocRxHandlerCb policers w x core i relFlowIdx
  if macOnly then saveForMacPort2 x core relFlowIdx h else h

/-- `CpswProxyServer_clientRequestHandler` for the requests about receive
flows. -/
def flowRequestHandler (macOnly : Bool) : FlowEvent μ → FlowHandled procs μ
  | .allocRx token flowIdx x =>
    match getClient w core token with
    | none => ⟨⟨w,efail,{}⟩,[],[]⟩
    | some i => serveAllocRx policers w x core i macOnly flowIdx
  | .freeRx token base offset x =>
    match getClient w core token with
    | none => ⟨⟨w,efail,{}⟩,[],[]⟩
    | some i => freeRxHandlerCb policers w x core i base offset

end Handlers

/-- An allocation that a request has answered with success. -/
structure Grant where
  /-- Virtual port of the client. -/
  virtPort : U32
  /-- Relative flow index of the request. -/
  relFlowIdx : U32
  /-- Flow index base of the answer. -/
  rxFlowIdxBase : U32
  /-- Flow index offset of the answer. -/
  rxFlowIdxOffset : U32
  /-- Entry of the table before the request. -/
  former : U32
  /-- Every entry that the request wrote, with what it held before. -/
  written : List TableWrite
  deriving DecidableEq

/-- The server with the allocations that its answers have made and not yet
taken back. -/
structure FlowServer (procs : ℕ) where
  /-- Server and platform. -/
  world : World procs
  /-- Outstanding allocations. -/
  grants : List Grant

/-- Virtual port of a client of the core. -/
def portOf (w : World procs) (core : Fin procs) (token : U32) : Option U32 :=
  (getClient w core token).map fun i => (w.client core i).virtPort

/-- The grant is of the virtual port and the offset. -/
def Grant.names (g : Grant) (virtPort rxFlowIdxOffset : U32) : Bool :=
  decide (g.virtPort = virtPort) && decide (g.rxFlowIdxOffset = rxFlowIdxOffset)

/-- What an entry holds; outside the tables there is no saying. -/
def entryBefore (s : Server procs) (virtPort relFlowIdx : U32) : U32 :=
  (tableEntry s virtPort relFlowIdx).getD invalidFlowIdxOffset

/-- Outstanding allocations after a request that succeeds with the writes. -/
def grantsAfter (s : FlowServer procs) (core : Fin procs) (writes : List TableWrite) :
    FlowEvent μ → List Grant
  | .allocRx token flowIdx x =>
    match portOf s.world core token with
    | none => s.grants
    | some v =>
      s.grants ++ [⟨v,flowIdx,x.rxFlowIdxBase,x.rxFlowIdxOffset,
        entryBefore s.world.server v flowIdx,
        writes.map fun wr => { wr with
          rxFlowIdxOffset := entryBefore s.world.server wr.virtPort wr.relFlowIdx }⟩]
  | .freeRx token _ offset _ =>
    match portOf s.world core token with
    | none => s.grants
    | some v => s.grants.filter fun g => !g.names v offset

section Property

variable (macOnly : Bool) (policers : U32 → U32 → List μ) (core : Fin procs)

/-- Server after a request. -/
def serve (s : FlowServer procs) (e : FlowEvent μ) : FlowServer procs :=
  let h := flowRequestHandler policers s.world core macOnly e
  ⟨h.world,if h.status = sok then grantsAfter s core h.writes e else s.grants⟩

/-- The result of a FREE_RX releases exactly the flow of an allocation with
its policers, and puts the former entry back. -/
structure Released (w : World procs) (g : Grant) (h : FlowHandled procs μ) : Prop where
  /-- The request succeeds. -/
  status : h.status = sok
  /-- Exactly the policers of the flow are deleted. -/
  policers : h.calls = (policers g.virtPort g.relFlowIdx).map .delete
  /-- The former entry is written back, and nothing else is written. -/
  writes : h.writes = [⟨g.virtPort,g.relFlowIdx,g.former⟩]
  /-- Every entry that the allocation wrote holds again what it held before. -/
  restored : ∀ wr ∈ g.written,
    tableEntry h.world.server wr.virtPort wr.relFlowIdx = some wr.rxFlowIdxOffset
  /-- The table has the former entry. -/
  table : h.world.server.virtPortCfg =
    (storeRxFlowOffset w g.virtPort g.relFlowIdx g.former).server.virtPortCfg
  /-- Exactly the flow is given back to the resource manager. -/
  flows : ∀ f, f ∈ h.world.platform.rxFlows ↔
    f ∈ w.platform.rxFlows ∧ f ≠ (core,g.rxFlowIdxBase,g.rxFlowIdxOffset)

/-- The calls that a FREE_RX makes succeed. -/
structure CallsSucceed (x : FlowOutcomes μ) : Prop where
  /-- Policers are deleted. -/
  policers : ∀ st ∈ x.policerStatus, st = sok
  /-- The resource manager frees the flow. -/
  free : x.freeStatus = sok

/-- Every outstanding allocation can be released by a client on its port. -/
def Releasable (s : FlowServer procs) : Prop :=
  ∀ g ∈ s.grants, ∀ i x base, (s.world.client core i).virtPort = g.virtPort →
    CallsSucceed x → base = x.startFlowIdx →
      Released policers core s.world g
        (freeRxHandlerCb policers s.world x core i base g.rxFlowIdxOffset)

/-- The request leaves the table, the policers and the flows alone. -/
structure Untouched (w : World procs) (h : FlowHandled procs μ) : Prop where
  /-- Tables of flow offsets. -/
  table : h.world.server.virtPortCfg = w.server.virtPortCfg
  /-- Policers. -/
  calls : h.calls = []
  /-- Flows. -/
  flows : h.world.platform.rxFlows = w.platform.rxFlows

/-- What a single request must do. -/
def StepOk (s : FlowServer procs) (e : FlowEvent μ) : Prop :=
  let h := flowRequestHandler policers s.world core macOnly e
  (∀ wr ∈ h.writes, (tableEntry s.world.server wr.virtPort wr.relFlowIdx).isSome) ∧
    match e with
    | .allocRx _ _ _ =>
      -- A failed ALLOC_RX leaves no flow and no change of the table.
      h.status = sok ∨ h.world.server.virtPortCfg = s.world.server.virtPortCfg ∧
        h.world.platform.rxFlows = s.world.platform.rxFlows
    | .freeRx token _ offset _ =>
      ∀ v, portOf s.world core token = some v →
        (∀ g ∈ s.grants, g.names v offset = true → Released policers core s.world g h) ∧
        -- An offset that is not allocated to the port fails without effect.
        ((∀ g ∈ s.grants, g.names v offset = false) →
          h.status ≠ sok ∧ Untouched s.world h)

/-- What an ALLOC_RX needs of the state and of the calls, once the resource
manager has given it a flow. -/
structure AllocFits (s : Server procs) (virtPort relFlowIdx : U32) (x : FlowOutcomes μ) :
    Prop where
  /-- The flow has the expected base. -/
  base : x.rxFlowIdxBase = x.startFlowIdx
  /-- The index is a flow of the port, its entry is marked free, and no
  earlier entry has the offset. -/
  entry : ∃ c, findCfg s virtPort = some c ∧ relFlowIdx < c.numRxFlow ∧
    c.rxFlowIdxOffset[relFlowIdx.toNat]? = some invalidFlowIdxOffset ∧
    x.rxFlowIdxOffset ∉ c.rxFlowIdxOffset.take relFlowIdx.toNat
  /-- The last custom policer is created. -/
  policers : lastStatus sok (policerRounds x (policers virtPort relFlowIdx)) = sok

/-- What a build with MAC-only ports needs besides: the core has a client of MAC
port 2, and its port is that of the request, has no table, or holds the offset at
the index already. -/
def MacPort2Fits (w : World procs) (virtPort relFlowIdx rxFlowIdxOffset : U32) : Prop :=
  ∃ v2, portOf w core (virtPort2Token macPort2) = some v2 ∧
    (v2 = virtPort ∨ findCfg w.server v2 = none ∨
      tableEntry w.server v2 relFlowIdx = some rxFlowIdxOffset)

/-- What a FREE_RX of an allocated flow needs of the calls. -/
structure FreeSucceeds (virtPort relFlowIdx base : U32) (x : FlowOutcomes μ) : Prop where
  /-- The last custom policer is deleted. -/
  policers : lastStatus sok (policerRounds x (policers virtPort relFlowIdx)) = sok
  /-- The request has the expected base. -/
  base : base = x.startFlowIdx
  /-- The resource manager frees the flow. -/
  free : x.freeStatus = sok

/-- What makes a FREE_RX of another offset fail without effect: `relFlowIdx`
is the entry the offset leads to, the first one when no entry has it. -/
structure FreeHarmless (s : Server procs) (virtPort relFlowIdx base : U32)
    (x : FlowOutcomes μ) : Prop where
  /-- The entry is already marked free. -/
  entry : tableEntry s virtPort relFlowIdx = some invalidFlowIdxOffset ∨ findCfg s virtPort = none
  /-- The flow has no custom policers. -/
  policers : rxFlowPolicers policers x s virtPort relFlowIdx = []
  /-- The flow is refused. -/
  refused : getRxFlowInfo s virtPort relFlowIdx ≠ sok ∨ base ≠ x.startFlowIdx ∨
    x.freeStatus ≠ sok

/-- The condition on the requests of a client of a ready server. -/
def Regular (s : FlowServer procs) : FlowEvent μ → Prop
  | .allocRx token flowIdx x =>
    ∀ v, portOf s.world core token = some v → getHandle s.world.server = sok →
      x.rxFlowStatus = sok → AllocFits policers s.world.server v flowIdx x ∧
        (macOnly = true → MacPort2Fits core s.world v flowIdx x.rxFlowIdxOffset)
  | .freeRx token base offset x =>
    ∀ v, portOf s.world core token = some v → getHandle s.world.server = sok →
      let rel := (getRelFlowIdx s.world.server v offset 0#32).2
      if s.grants.any fun g => g.names v offset then FreeSucceeds policers v rel base x
      else FreeHarmless policers s.world.server v rel base x

/-- The resource manager gives a core only a flow that it has not given to
it already, and never the offset that marks an entry free. -/
def GivesFreeFlow (s : FlowServer procs) : FlowEvent μ → Prop
  | .allocRx _ _ x =>
    x.rxFlowStatus = sok → x.rxFlowIdxOffset ≠ invalidFlowIdxOffset ∧
      ∀ f ∈ s.world.platform.rxFlows, f.1 = core → f.2.2 ≠ x.rxFlowIdxOffset
  | .freeRx _ _ _ _ => True

/-- The allocation is saved in the table of its port. -/
structure Saved (s : Server procs) (g : Grant) : Prop where
  /-- The server is ready. -/
  ready : getHandle s = sok
  /-- The first entry with the offset is that of the flow. -/
  entry : ∃ c, findCfg s g.virtPort = some c ∧ g.relFlowIdx < c.numRxFlow ∧
    c.rxFlowIdxOffset.idxOf? g.rxFlowIdxOffset = some g.relFlowIdx.toNat

/-- The flow of the allocation is the core's only one with the offset. -/
structure Held (flows : List (Fin procs × U32 × U32)) (g : Grant) : Prop where
  /-- The manager has given the flow. -/
  given : (core,g.rxFlowIdxBase,g.rxFlowIdxOffset) ∈ flows
  /-- No other flow of the core has the offset. -/
  unique : ∀ f ∈ flows, f.1 = core → f.2.2 = g.rxFlowIdxOffset →
    f = (core,g.rxFlowIdxBase,g.rxFlowIdxOffset)

/-- An entry written by the allocation: that of its flow, or one of another port
that held the offset before. -/
def Restorable (s : Server procs) (g : Grant) (wr : TableWrite) : Prop :=
  wr = ⟨g.virtPort,g.relFlowIdx,g.former⟩ ∨
    wr.virtPort ≠ g.virtPort ∧ wr.rxFlowIdxOffset = g.rxFlowIdxOffset ∧
      tableEntry s wr.virtPort wr.relFlowIdx = some g.rxFlowIdxOffset

/-- An outstanding allocation. -/
structure GrantOk (w : World procs) (g : Grant) : Prop where
  /-- Table. -/
  saved : Saved w.server g
  /-- Resource manager. -/
  held : Held core w.platform.rxFlows g
  /-- The entry was marked free. -/
  former : g.former = invalidFlowIdxOffset
  /-- Entries that it wrote. -/
  written : ∀ wr ∈ g.written, Restorable w.server g wr
  /-- The offset is not the mark. -/
  valid : g.rxFlowIdxOffset ≠ invalidFlowIdxOffset

/-- Outstanding allocations are in step with tables and manager, and their
offsets are distinct. -/
structure Inv (s : FlowServer procs) : Prop where
  /-- Each allocation. -/
  grants : ∀ g ∈ s.grants, GrantOk core s.world g
  /-- Distinct offsets. -/
  nodup : (s.grants.map Grant.rxFlowIdxOffset).Nodup

end Property

section Lists

variable {α : Type*} [DecidableEq α] {l : List α} {k : ℕ} {a b : α}

/-- Writing another value over another value keeps the first index. -/
theorem idxOf?_set_of_ne (hk : l[k]? ≠ some a) (hb : b ≠ a) :
    (l.set k b).idxOf? a = l.idxOf? a := by
  induction l generalizing k with
  | nil => rfl
  | cons c l ih =>
    cases k with
    | zero =>
      have hc : c ≠ a := fun he => hk (by simp [he])
      rw [List.set_cons_zero,List.idxOf?_cons,List.idxOf?_cons]
      simp [hb,hc]
    | succ k =>
      rw [List.set_cons_succ,List.idxOf?_cons,List.idxOf?_cons,ih (by simpa using hk)]

/-- A value is found where it is written when no earlier entry has it. -/
theorem idxOf?_set_self :
    (l.set k a).idxOf? a = some k ↔ k < l.length ∧ a ∉ l.take k := by
  induction l generalizing k with
  | nil => simp
  | cons c l ih =>
    cases k with
    | zero => simp [List.idxOf?_cons]
    | succ k =>
      rw [List.set_cons_succ,List.idxOf?_cons,List.take_succ_cons,List.length_cons,List.mem_cons]
      by_cases hc : c = a
      · simp [hc]
      · have hne : ¬ a = c := fun he => hc he.symm
        simp only [beq_iff_eq,hc,if_false,hne,false_or,Option.map_eq_some_iff]
        constructor
        · rintro ⟨j,hj,hjk⟩
          obtain rfl : j = k := by omega
          have := ih.mp hj
          exact ⟨by omega,this.2⟩
        · rintro ⟨hlt,hmem⟩
          exact ⟨k,ih.mpr ⟨by omega,hmem⟩,rfl⟩

theorem getElem?_of_idxOf? (h : l.idxOf? a = some k) : l[k]? = some a := by
  obtain ⟨hk,ha,-⟩ := List.idxOf?_eq_some_iff.mp h
  rw [List.getElem?_eq_getElem hk,ha]

end Lists

section Tables

variable {w : World procs} {s : Server procs} {v v' r o : U32} {c : VirtPortCfg}

/-- A configuration entry with a flow offset written. -/
def setOffset (c : VirtPortCfg) (relFlowIdx rxFlowIdxOffset : U32) : VirtPortCfg :=
  { c with rxFlowIdxOffset := c.rxFlowIdxOffset.set relFlowIdx.toNat rxFlowIdxOffset }

theorem find?_port_cons (cs : List VirtPortCfg) :
    (c :: cs).find? (fun c => c.portId.val == v) =
      if c.portId.val = v then some c else cs.find? fun c => c.portId.val == v := by
  by_cases hv : c.portId.val = v
  · rw [List.find?_cons,if_pos hv,beq_iff_eq.mpr hv]
  · rw [List.find?_cons,if_neg hv,beq_eq_false_iff_ne.mpr hv]

/-- A saved offset is seen in the port's own entry only. -/
theorem findCfg_store :
    findCfg (storeRxFlowOffset w v r o).server v' =
      if v' = v then (findCfg w.server v').map fun c => setOffset c r o
      else findCfg w.server v' := by
  unfold findCfg storeRxFlowOffset
  dsimp only
  induction w.server.virtPortCfg with
  | nil => simp [saveRxFlowOffset]
  | cons c cs ih =>
    unfold saveRxFlowOffset
    by_cases hv : c.portId.val = v
    · by_cases hv' : v' = v
      · simp [hv,hv',setOffset]
      · have hne : ¬ v = v' := fun he => hv' he.symm
        simp [hv,hv',hne]
    · rw [if_neg hv,find?_port_cons,find?_port_cons]
      by_cases hc : c.portId.val = v'
      · have hne : ¬ v' = v := fun he => hv (hc.trans he)
        rw [if_pos hc,if_neg hne,if_pos hc]
      · rw [if_neg hc,if_neg hc]
        exact ih

theorem getHandle_congr {s' : Server procs} (h : s'.initDone = s.initDone) :
    getHandle s' = getHandle s := by
  unfold getHandle
  rw [h]

theorem findCfg_congr {s' : Server procs} (h : s'.virtPortCfg = s.virtPortCfg) (v : U32) :
    findCfg s' v = findCfg s v := by
  unfold findCfg
  rw [h]

theorem tableEntry_congr {s' : Server procs} (h : s'.virtPortCfg = s.virtPortCfg) (v r : U32) :
    tableEntry s' v r = tableEntry s v r := by
  unfold tableEntry
  rw [findCfg_congr h]

/-- A saved offset is seen in one entry only. -/
theorem tableEntry_store {r' : U32} :
    tableEntry (storeRxFlowOffset w v r o).server v' r' =
      if v' = v ∧ r' = r then (tableEntry w.server v' r').map fun _ => o
      else tableEntry w.server v' r' := by
  unfold tableEntry
  rw [findCfg_store]
  by_cases hv : v' = v
  · rw [if_pos hv]
    cases findCfg w.server v' with
    | none => simp
    | some c =>
      have hidx : r.toNat = r'.toNat ↔ r' = r := by rw [BitVec.toNat_inj,eq_comm]
      simp only [Option.map_some,Option.bind_some,setOffset,List.getElem?_set,hidx,hv,true_and]
      by_cases hr : r' = r
      · subst hr
        by_cases hlt : r'.toNat < c.rxFlowIdxOffset.length <;> simp [hlt]
      · rw [if_neg hr,if_neg hr]
  · have hno : ¬ (v' = v ∧ r' = r) := fun h => hv h.1
    rw [if_neg hv,if_neg hno]

/-- An entry of a table holds what is saved there. -/
theorem tableEntry_store_self (h : (tableEntry w.server v r).isSome) :
    tableEntry (storeRxFlowOffset w v r o).server v r = some o := by
  obtain ⟨e,he⟩ := Option.isSome_iff_exists.mp h
  rw [tableEntry_store,if_pos ⟨rfl,rfl⟩,he]
  rfl

/-- Saving for another port leaves an entry. -/
theorem tableEntry_store_of_ne {r' : U32} (h : v' ≠ v) :
    tableEntry (storeRxFlowOffset w v r o).server v' r' = tableEntry w.server v' r' := by
  rw [tableEntry_store,if_neg fun hc => h hc.1]

/-- Saving over another value leaves the entries that hold a value. -/
theorem tableEntry_store_keep {r' a : U32} (h : tableEntry w.server v' r' = some a)
    (hne : tableEntry w.server v r ≠ some a) :
    tableEntry (storeRxFlowOffset w v r o).server v' r' = some a := by
  rw [tableEntry_store,if_neg,h]
  rintro ⟨rfl,rfl⟩
  exact hne h

theorem findCfg_store_self (h : findCfg w.server v = some c) :
    findCfg (storeRxFlowOffset w v r o).server v = some (setOffset c r o) := by
  rw [findCfg_store,if_pos rfl,h]
  rfl

/-- Saving what an entry already holds changes nothing. -/
theorem save_same (h : tableEntry s v r = some o ∨ findCfg s v = none) :
    saveRxFlowOffset v r.toNat o s.virtPortCfg = s.virtPortCfg := by
  unfold tableEntry findCfg at h
  generalize s.virtPortCfg = cfg at h ⊢
  induction cfg with
  | nil => rfl
  | cons c cs ih =>
    unfold saveRxFlowOffset
    rw [find?_port_cons] at h
    by_cases hv : c.portId.val = v
    · rw [if_pos hv] at h ⊢
      have hentry : c.rxFlowIdxOffset[r.toNat]? = some o := by simpa using h
      obtain ⟨hr,ho⟩ := List.getElem?_eq_some_iff.mp hentry
      rw [← ho,List.set_getElem_self]
    · rw [if_neg hv] at h ⊢
      rw [ih h]

/-- An entry that a save leaves alone held the value. -/
theorem entry_of_save_same (hin : (tableEntry w.server v r).isSome)
    (h : (storeRxFlowOffset w v r o).server.virtPortCfg = w.server.virtPortCfg) :
    tableEntry w.server v r = some o := by
  have hserver := findCfg_congr h v
  unfold tableEntry at hin ⊢
  cases hc : findCfg w.server v with
  | none => simp [hc] at hin
  | some c =>
    rw [findCfg_store_self hc,hc] at hserver
    have hset := congrArg VirtPortCfg.rxFlowIdxOffset (Option.some.inj hserver)
    simp only [hc,Option.bind_some] at hin ⊢
    rw [← hset]
    simp only [setOffset]
    rw [List.getElem?_set_self]
    simpa using hin

end Tables

section Lookups

variable {policers : U32 → U32 → List μ} {s : Server procs} {w : World procs} {v r o base : U32}
  {c : VirtPortCfg} {x : FlowOutcomes μ} {g : Grant}

theorem validateStartIdx_ok_iff (x : Outcomes) :
    validateStartIdx x base = sok ↔ base = x.startFlowIdx := by
  unfold validateStartIdx
  split <;> simp [*]

theorem getRxFlowInfo_ok (h : findCfg s v = some c) (hr : r < c.numRxFlow) :
    getRxFlowInfo s v r = sok := by
  simp [getRxFlowInfo,h,hr]

theorem rxFlowPolicers_ok (h : findCfg s v = some c) (hr : r < c.numRxFlow) :
    rxFlowPolicers policers x s v r = policers v r := by
  simp [rxFlowPolicers,h,hr]

theorem tableWrites_ok (h : findCfg s v = some c) : tableWrites s v r o = [⟨v,r,o⟩] := by
  simp [tableWrites,h]

theorem tableEntry_eq (h : findCfg s v = some c) :
    tableEntry s v r = c.rxFlowIdxOffset[r.toNat]? := by
  simp [tableEntry,h]

/-- Calls that all succeed leave a good status. -/
theorem CallsSucceed.lastStatus (h : CallsSucceed x) (l : List μ) :
    lastStatus sok (policerRounds x l) = sok := by
  have hall : ∀ st ∈ policerRounds x l, st = sok := by
    intro st hst
    obtain ⟨k,-,rfl⟩ := List.mem_map.mp hst
    rw [List.getD_eq_getElem?_getD]
    cases hk : x.policerStatus[k]? with
    | none => rfl
    | some st => exact h.policers st (List.mem_of_getElem? hk)
  unfold ProxyServerResources.lastStatus
  rw [List.getLastD_eq_getLast?]
  cases hlast : (policerRounds x l).getLast? with
  | none => rfl
  | some st => exact hall st (List.mem_of_getLast? hlast)

/-- The flow information does not depend on saved offsets. -/
theorem getRxFlowInfo_store (v' r' : U32) :
    getRxFlowInfo (storeRxFlowOffset w v r o).server v' r' = getRxFlowInfo w.server v' r' := by
  unfold getRxFlowInfo
  rw [findCfg_store]
  by_cases hv : v' = v
  · rw [if_pos hv]
    cases findCfg w.server v' with
    | none => rfl
    | some c => rfl
  · rw [if_neg hv]
    rfl

theorem rxFlowPolicers_store (v' r' : U32) :
    rxFlowPolicers policers x (storeRxFlowOffset w v r o).server v' r' =
      rxFlowPolicers policers x w.server v' r' := by
  unfold rxFlowPolicers
  rw [findCfg_store]
  by_cases hv : v' = v
  · rw [if_pos hv]
    cases findCfg w.server v' with
    | none => rfl
    | some c => rfl
  · rw [if_neg hv]

namespace Saved

theorem info (h : Saved s g) : getRxFlowInfo s g.virtPort g.relFlowIdx = sok := by
  obtain ⟨c,hc,hr,-⟩ := h.entry
  exact getRxFlowInfo_ok hc hr

theorem flowPolicers (h : Saved s g) :
    rxFlowPolicers policers x s g.virtPort g.relFlowIdx =
      policers g.virtPort g.relFlowIdx := by
  obtain ⟨c,hc,hr,-⟩ := h.entry
  exact rxFlowPolicers_ok hc hr

theorem writes (h : Saved s g) :
    tableWrites s g.virtPort g.relFlowIdx o = [⟨g.virtPort,g.relFlowIdx,o⟩] := by
  obtain ⟨c,hc,-⟩ := h.entry
  exact tableWrites_ok hc

/-- The look-up by offset leads to the flow. -/
theorem rel (h : Saved s g) (old : U32) :
    getRelFlowIdx s g.virtPort g.rxFlowIdxOffset old = (sok,g.relFlowIdx) := by
  obtain ⟨c,hc,-,hidx⟩ := h.entry
  simp [getRelFlowIdx,hc,hidx]

theorem tableEntry (h : Saved s g) :
    tableEntry s g.virtPort g.relFlowIdx = some g.rxFlowIdxOffset := by
  obtain ⟨c,hc,-,hidx⟩ := h.entry
  rw [tableEntry_eq hc]
  exact getElem?_of_idxOf? hidx

theorem of_eq {s' : Server procs} (h : Saved s g) (hi : s'.initDone = s.initDone)
    (hc : s'.virtPortCfg = s.virtPortCfg) : Saved s' g := by
  refine ⟨(getHandle_congr hi).trans h.ready,?_⟩
  rw [findCfg_congr hc]
  exact h.entry

/-- Another offset saved over another one leaves the allocation's entry. -/
theorem store (h : Saved w.server g) (ho : o ≠ g.rxFlowIdxOffset)
    (hr : ProxyServerRxFlows.tableEntry w.server v r ≠ some g.rxFlowIdxOffset) :
    Saved (storeRxFlowOffset w v r o).server g := by
  obtain ⟨c,hc,hlt,hidx⟩ := h.entry
  refine ⟨h.ready,?_⟩
  rw [findCfg_store]
  by_cases hv : g.virtPort = v
  · rw [if_pos hv,hc]
    refine ⟨setOffset c r o,rfl,hlt,?_⟩
    rw [← hv,tableEntry_eq hc] at hr
    exact (idxOf?_set_of_ne hr ho).trans hidx
  · rw [if_neg hv]
    exact ⟨c,hc,hlt,hidx⟩

end Saved

namespace Restorable

variable {wr : TableWrite}

theorem of_eq {s' : Server procs} (h : Restorable s g wr)
    (hc : s'.virtPortCfg = s.virtPortCfg) : Restorable s' g wr := by
  refine h.imp_right fun ⟨hv,ho,he⟩ => ⟨hv,ho,?_⟩
  rw [tableEntry_congr hc]
  exact he

/-- What is saved over another offset leaves it restorable. -/
theorem store (h : Restorable w.server g wr)
    (hr : tableEntry w.server v r ≠ some g.rxFlowIdxOffset) :
    Restorable (storeRxFlowOffset w v r o).server g wr :=
  h.imp_right fun ⟨hv,ho,he⟩ => ⟨hv,ho,tableEntry_store_keep he hr⟩

/-- It holds what it held once the flow's entry has its former value. -/
theorem restored (h : Restorable w.server g wr)
    (hin : (tableEntry w.server g.virtPort g.relFlowIdx).isSome) :
    tableEntry (storeRxFlowOffset w g.virtPort g.relFlowIdx g.former).server
      wr.virtPort wr.relFlowIdx = some wr.rxFlowIdxOffset := by
  rcases h with rfl | ⟨hv,ho,he⟩
  · exact tableEntry_store_self hin
  · rw [tableEntry_store_of_ne hv,he,ho]

end Restorable

end Lookups

section Releases

variable {policers : U32 → U32 → List μ} {w : World procs} {core : Fin procs} {i : Slot}
  {v r o base : U32} {x : FlowOutcomes μ} {g : Grant}

/-- What the resource manager keeps when it frees a core's flow. -/
theorem mem_freed_iff (h : Held core w.platform.rxFlows g) (f : Fin procs × U32 × U32) :
    f ∈ (takeBack core (isFlowAt g.rxFlowIdxOffset) w.platform).rxFlows ↔
      f ∈ w.platform.rxFlows ∧ f ≠ (core,g.rxFlowIdxBase,g.rxFlowIdxOffset) := by
  simp only [takeBack,List.mem_filter,isFlowAt,Bool.not_eq_eq_eq_not,Bool.not_true,
    Bool.and_eq_false_iff,decide_eq_false_iff_not]
  refine and_congr_right fun hf => ?_
  constructor
  · rintro hne rfl
    simp at hne
  · intro hne
    by_cases hcore : f.1 = core
    · exact Or.inr fun ho => hne (h.unique f hf hcore ho)
    · exact Or.inl hcore

end Releases

section Allocations

variable (policers : U32 → U32 → List μ) {w : World procs} (core : Fin procs) (i : Slot) (r : U32)
  {x : FlowOutcomes μ}

/-- What an ALLOC_RX does once the resource manager has given it a flow.
The flow stays given whatever follows. -/
theorem alloc_flows (hready : getHandle w.server = sok) (hflow : x.rxFlowStatus = sok) :
    (allocRxHandlerCb policers w x core i r).world.platform.rxFlows =
      w.platform.rxFlows ++ [(core,x.rxFlowIdxBase,x.rxFlowIdxOffset)] := by
  unfold allocRxHandlerCb
  rw [if_pos hready,if_pos hflow]
  dsimp only
  split_ifs <;> rfl

/-- An ALLOC_RX that has a flow succeeds exactly with the expected base, a
flow of the port, or no port at all, and the last policer created. -/
theorem alloc_ok_iff (hready : getHandle w.server = sok) (hflow : x.rxFlowStatus = sok) :
    (allocRxHandlerCb policers w x core i r).status = sok ↔
      x.rxFlowIdxBase = x.startFlowIdx ∧
        getRxFlowInfo w.server (w.client core i).virtPort r = sok ∧
        lastStatus sok (policerRounds x
          (rxFlowPolicers policers x w.server (w.client core i).virtPort r)) = sok := by
  unfold allocRxHandlerCb
  rw [if_pos hready,if_pos hflow]
  dsimp only
  rw [getRxFlowInfo_store,rxFlowPolicers_store,← validateStartIdx_ok_iff]
  by_cases hbase : validateStartIdx x.toOutcomes x.rxFlowIdxBase = sok
  · rw [if_pos hbase]
    -- Giving the flow and rewriting the client keep the configuration.
    change (if getRxFlowInfo w.server (w.client core i).virtPort r = sok then _ else _ :
      FlowHandled procs μ).status = sok ↔ _
    by_cases hinfo : getRxFlowInfo w.server (w.client core i).virtPort r = sok
    · rw [if_pos hinfo]
      have hsame : ∀ l, lastStatus (getRxFlowInfo w.server (w.client core i).virtPort r) l =
          lastStatus sok l := fun l => congrArg (lastStatus · l) hinfo
      exact ⟨fun h => ⟨hbase,hinfo,(hsame _).symm.trans h⟩,fun h => (hsame _).trans h.2.2⟩
    · rw [if_neg hinfo]
      exact iff_of_false hinfo fun h => hinfo h.2.1
  · rw [if_neg hbase]
    exact iff_of_false hbase fun h => hbase h.1

/-- Table and writes of an ALLOC_RX that reaches the save. -/
theorem alloc_saved (hready : getHandle w.server = sok) (hflow : x.rxFlowStatus = sok)
    (hbase : x.rxFlowIdxBase = x.startFlowIdx) :
    let h := allocRxHandlerCb policers w x core i r
    h.world.server.virtPortCfg =
        (storeRxFlowOffset w (w.client core i).virtPort r x.rxFlowIdxOffset).server.virtPortCfg ∧
      h.world.server.initDone = w.server.initDone ∧
      h.writes = tableWrites w.server (w.client core i).virtPort r x.rxFlowIdxOffset := by
  unfold allocRxHandlerCb
  rw [if_pos hready,if_pos hflow,if_pos ((validateStartIdx_ok_iff _).mpr hbase)]
  dsimp only
  split_ifs <;> exact ⟨rfl,rfl,rfl⟩

/-- The clients and their ports are the same. -/
structure SameClients (w w' : World procs) : Prop where
  /-- Slots in use. -/
  inUse : ∀ core j, (w'.client core j).inUse = (w.client core j).inUse
  /-- Tokens. -/
  token : ∀ core j, (w'.client core j).token = (w.client core j).token
  /-- Virtual ports. -/
  virtPort : ∀ core j, (w'.client core j).virtPort = (w.client core j).virtPort

/-- They do not depend on tables and flows. -/
theorem SameClients.of_client {w' w2 : World procs} (h : SameClients w w')
    (hc : ∀ core j, w2.client core j = w'.client core j) : SameClients w w2 := by
  constructor <;> intro core j <;> rw [hc]
  · exact h.inUse core j
  · exact h.token core j
  · exact h.virtPort core j

/-- Saving a flow in a client object keeps the clients. -/
theorem SameClients.saveFlow {w' : World procs} (h : SameClients w w') (core : Fin procs)
    (i : Slot) (base o : U32) :
    SameClients w (w'.modifyClient core i fun c =>
      { c with flowIdxBase := base, flowIdxOffset := o }) := by
  constructor <;> intro core' j <;> rw [client_modifyClient] <;> split_ifs with hj
  · exact (h.inUse core i).trans (by rw [hj.1,hj.2])
  · exact h.inUse core' j
  · exact (h.token core i).trans (by rw [hj.1,hj.2])
  · exact h.token core' j
  · exact (h.virtPort core i).trans (by rw [hj.1,hj.2])
  · exact h.virtPort core' j

theorem alloc_sameClients :
    SameClients w (allocRxHandlerCb policers w x core i r).world := by
  have hgiven : ∀ p, SameClients w { w with platform := p } := fun p =>
    ⟨fun _ _ => rfl,fun _ _ => rfl,fun _ _ => rfl⟩
  unfold allocRxHandlerCb
  dsimp only
  split_ifs
  · exact ((hgiven _).saveFlow core i _ _).of_client fun _ _ => rfl
  · exact ((hgiven _).saveFlow core i _ _).of_client fun _ _ => rfl
  all_goals exact hgiven _

/-- A token leads to the same port. -/
theorem SameClients.portOf {w' : World procs} (h : SameClients w w') (core : Fin procs)
    (token : U32) : portOf w' core token = portOf w core token := by
  have hget : getClient w' core token = getClient w core token := by
    unfold getClient SlotTables.firstSlot
    simp only [h.inUse,h.token]
  unfold ProxyServerRxFlows.portOf
  rw [hget]
  simp only [h.virtPort]

end Allocations

section MacPort2

variable (policers : U32 → U32 → List μ) {w : World procs} (core : Fin procs) (i : Slot) (r : U32)
  {x : FlowOutcomes μ} (macOnly : Bool)

/-- The flow is saved for a second port. -/
structure SavedTwice (w : World procs) (r o v2 : U32) (h h' : FlowHandled procs μ) : Prop where
  /-- The request succeeds. -/
  status : h'.status = sok
  /-- Table. -/
  table : h'.world.server.virtPortCfg = (storeRxFlowOffset h.world v2 r o).server.virtPortCfg
  /-- The server stays ready. -/
  initDone : h'.world.server.initDone = h.world.server.initDone
  /-- Writes. -/
  writes : h'.writes = h.writes ++ tableWrites h.world.server v2 r o
  /-- The manager is not called. -/
  flows : h'.world.platform.rxFlows = h.world.platform.rxFlows
  /-- The clients keep their ports. -/
  clients : SameClients w h'.world

/-- What the rest of the request can do. -/
theorem serveAllocRx_cases (w : World procs) (x : FlowOutcomes μ) :
    let h := allocRxHandlerCb policers w x core i r
    let h' := serveAllocRx policers w x core i macOnly r
    h' = h ∧ (macOnly = true → h.status ≠ sok) ∨
      macOnly = true ∧ portOf w core (virtPort2Token macPort2) = none ∧
        h' = { h with status := efail } ∨
      macOnly = true ∧ h.status = sok ∧ ∃ v2,
        portOf w core (virtPort2Token macPort2) = some v2 ∧
          SavedTwice w r x.rxFlowIdxOffset v2 h h' := by
  intro h h'
  have hsame : SameClients w h.world := alloc_sameClients policers core i r
  cases macOnly with
  | false => exact Or.inl ⟨rfl,fun hm => nomatch hm⟩
  | true =>
    by_cases hok : h.status = sok
    · right
      have hcase : h' = saveForMacPort2 x core r h := rfl
      unfold saveForMacPort2 at hcase
      rw [if_pos hok] at hcase
      cases hget : getClient h.world core (virtPort2Token macPort2) with
      | none =>
        rw [hget] at hcase
        refine Or.inl ⟨rfl,?_,hcase⟩
        rw [← hsame.portOf core,portOf,hget]
        rfl
      | some j =>
        rw [hget] at hcase
        have hport : portOf w core (virtPort2Token macPort2) =
            some (h.world.client core j).virtPort := by
          rw [← hsame.portOf core,portOf,hget]
          rfl
        have hclients := hsame.saveFlow core j x.rxFlowIdxBase x.rxFlowIdxOffset
        have hj : ((h.world.modifyClient core j fun c => { c with
            flowIdxBase := x.rxFlowIdxBase, flowIdxOffset := x.rxFlowIdxOffset }).client
              core j).virtPort = (h.world.client core j).virtPort := by
          rw [client_modifyClient_self]
        dsimp only at hcase
        rw [hj] at hcase
        refine Or.inr ⟨rfl,hok,_,hport,?_⟩
        rw [hcase]
        exact ⟨hok,rfl,rfl,rfl,rfl,hclients.of_client fun _ _ => rfl⟩
    · left
      refine ⟨?_,fun _ => hok⟩
      change saveForMacPort2 x core r h = h
      unfold saveForMacPort2
      rw [if_neg hok]

/-- The flow is given once, whatever follows. -/
theorem serve_flows (hready : getHandle w.server = sok) (hflow : x.rxFlowStatus = sok) :
    (serveAllocRx policers w x core i macOnly r).world.platform.rxFlows =
      w.platform.rxFlows ++ [(core,x.rxFlowIdxBase,x.rxFlowIdxOffset)] := by
  rw [← alloc_flows policers core i r hready hflow]
  rcases serveAllocRx_cases policers core i r macOnly w x with ⟨h,-⟩ | ⟨-,-,h⟩ | ⟨-,-,v2,-,h⟩
  · rw [h]
  · rw [h]
  · exact h.flows

/-- A request that succeeds and has saved its offset, besides entries that hold
it already. -/
structure Allocated (core : Fin procs) (w : World procs) (v r : U32) (x : FlowOutcomes μ)
    (h : FlowHandled procs μ) : Prop where
  /-- It succeeds. -/
  status : h.status = sok
  /-- Table. -/
  table : h.world.server.virtPortCfg =
    (storeRxFlowOffset w v r x.rxFlowIdxOffset).server.virtPortCfg
  /-- The server stays ready. -/
  initDone : h.world.server.initDone = w.server.initDone
  /-- Flows. -/
  flows : h.world.platform.rxFlows =
    w.platform.rxFlows ++ [(core,x.rxFlowIdxBase,x.rxFlowIdxOffset)]
  /-- Writes. -/
  writes : ∀ wr ∈ h.writes, wr.relFlowIdx = r ∧ (wr.virtPort = v ∨
    wr.virtPort ≠ v ∧ tableEntry w.server wr.virtPort r = some x.rxFlowIdxOffset)

/-- An ALLOC_RX that fits its state allocates. -/
theorem allocated_of_fits (hready : getHandle w.server = sok) (hflow : x.rxFlowStatus = sok)
    (hfits : AllocFits policers w.server (w.client core i).virtPort r x)
    (hmac : macOnly = true →
      MacPort2Fits core w (w.client core i).virtPort r x.rxFlowIdxOffset) :
    Allocated core w (w.client core i).virtPort r x
      (serveAllocRx policers w x core i macOnly r) := by
  obtain ⟨c,hc,hr,hentry,-⟩ := hfits.entry
  have hok : (allocRxHandlerCb policers w x core i r).status = sok := by
    refine (alloc_ok_iff policers core i r hready hflow).mpr ⟨hfits.base,getRxFlowInfo_ok hc hr,?_⟩
    rw [rxFlowPolicers_ok hc hr]
    exact hfits.policers
  obtain ⟨hcfg,hinit,hwrites⟩ := alloc_saved policers core i r hready hflow hfits.base
  have hflows := serve_flows policers core i r macOnly hready hflow
  rw [tableWrites_ok hc] at hwrites
  have hown : ∀ wr ∈ (allocRxHandlerCb policers w x core i r).writes,
      wr.relFlowIdx = r ∧ (wr.virtPort = (w.client core i).virtPort ∨
        wr.virtPort ≠ (w.client core i).virtPort ∧
          tableEntry w.server wr.virtPort r = some x.rxFlowIdxOffset) := by
    intro wr hwr
    rw [hwrites] at hwr
    obtain rfl := List.mem_singleton.mp hwr
    exact ⟨rfl,Or.inl rfl⟩
  rcases serveAllocRx_cases policers core i r macOnly w x with
    ⟨h,-⟩ | ⟨hm,hnone,-⟩ | ⟨hm,-,v2,hport,h⟩
  · rw [h] at hflows ⊢
    exact ⟨hok,hcfg,hinit,hflows,hown⟩
  · obtain ⟨v2,hport,-⟩ := hmac hm
    rw [hnone] at hport
    contradiction
  · obtain ⟨v2',hport',hsecond⟩ := hmac hm
    obtain rfl : v2 = v2' := Option.some.inj (hport.symm.trans hport')
    have hentry' : (tableEntry w.server (w.client core i).virtPort r).isSome := by
      rw [tableEntry_eq hc,hentry]
      rfl
    -- the second save writes what is there already, or nothing
    have hthere : tableEntry (allocRxHandlerCb policers w x core i r).world.server v2 r =
          some x.rxFlowIdxOffset ∨
        findCfg (allocRxHandlerCb policers w x core i r).world.server v2 = none := by
      rw [tableEntry_congr hcfg,findCfg_congr hcfg]
      by_cases hv : v2 = (w.client core i).virtPort
      · rw [hv]
        exact Or.inl (tableEntry_store_self hentry')
      · rw [tableEntry_store_of_ne hv,findCfg_store,if_neg hv]
        exact (hsecond.resolve_left hv).symm
    refine ⟨h.status,?_,h.initDone.trans hinit,hflows,?_⟩
    · rw [h.table]
      exact (save_same hthere).trans hcfg
    · intro wr hwr
      rw [h.writes] at hwr
      rcases List.mem_append.mp hwr with hwr | hwr
      · exact hown wr hwr
      · unfold tableWrites at hwr
        split at hwr
        · next hsome =>
          obtain rfl := List.mem_singleton.mp hwr
          refine ⟨rfl,?_⟩
          by_cases hv : v2 = (w.client core i).virtPort
          · exact Or.inl hv
          · refine Or.inr ⟨hv,?_⟩
            rw [← tableEntry_store_of_ne hv,← tableEntry_congr hcfg]
            refine hthere.resolve_right fun hn => ?_
            rw [hn] at hsome
            contradiction
        · cases hwr

/-- Where a request that succeeds leads the look-ups of its port. -/
theorem findCfg_serve {c : Option VirtPortCfg} (hready : getHandle w.server = sok)
    (hflow : x.rxFlowStatus = sok) (hbase : x.rxFlowIdxBase = x.startFlowIdx)
    (hok : (serveAllocRx policers w x core i macOnly r).status = sok)
    (hc : findCfg w.server (w.client core i).virtPort = c) :
    findCfg (serveAllocRx policers w x core i macOnly r).world.server
        (w.client core i).virtPort =
      c.map fun c => setOffset c r x.rxFlowIdxOffset := by
  have hcfg := (alloc_saved policers core i r hready hflow hbase).1
  have hfirst : findCfg (allocRxHandlerCb policers w x core i r).world.server
      (w.client core i).virtPort = c.map fun c => setOffset c r x.rxFlowIdxOffset := by
    rw [findCfg_congr hcfg,findCfg_store,if_pos rfl,hc]
  rcases serveAllocRx_cases policers core i r macOnly w x with ⟨h,-⟩ | ⟨-,-,h⟩ | ⟨-,-,v2,-,h⟩
  · rw [h]
    exact hfirst
  · rw [h] at hok
    exact absurd hok efail_ne_sok
  · rw [findCfg_congr h.table,findCfg_store,hfirst]
    split_ifs
    · cases c with
      | none => rfl
      | some c => simp [setOffset,List.set_set]
    · rfl

theorem serve_sameClients :
    SameClients w (serveAllocRx policers w x core i macOnly r).world := by
  have hfirst : SameClients w (allocRxHandlerCb policers w x core i r).world :=
    alloc_sameClients policers core i r
  rcases serveAllocRx_cases policers core i r macOnly w x with ⟨h,-⟩ | ⟨-,-,h⟩ | ⟨-,-,v2,-,h⟩
  · rw [h]
    exact hfirst
  · rw [h]
    exact hfirst
  · exact h.clients

/-- The rest of the request adds writes. -/
theorem mem_serve_writes {wr : TableWrite}
    (hwr : wr ∈ (allocRxHandlerCb policers w x core i r).writes) :
    wr ∈ (serveAllocRx policers w x core i macOnly r).writes := by
  rcases serveAllocRx_cases policers core i r macOnly w x with ⟨h,-⟩ | ⟨-,-,h⟩ | ⟨-,-,v2,-,h⟩
  · rw [h]
    exact hwr
  · rw [h]
    exact hwr
  · rw [h.writes]
    exact List.mem_append_left _ hwr

/-- It succeeds only behind a callback that does, and the server stays ready. -/
theorem alloc_of_serve_ok (hready : getHandle w.server = sok) (hflow : x.rxFlowStatus = sok)
    (hok : (serveAllocRx policers w x core i macOnly r).status = sok) :
    (allocRxHandlerCb policers w x core i r).status = sok ∧
      getHandle (serveAllocRx policers w x core i macOnly r).world.server = sok := by
  have hready' : (allocRxHandlerCb policers w x core i r).status = sok →
      getHandle (allocRxHandlerCb policers w x core i r).world.server = sok := by
    intro hfirst
    have hbase := ((alloc_ok_iff policers core i r hready hflow).mp hfirst).1
    exact (getHandle_congr (alloc_saved policers core i r hready hflow hbase).2.1).trans hready
  rcases serveAllocRx_cases policers core i r macOnly w x with
    ⟨h,-⟩ | ⟨-,-,h⟩ | ⟨-,hfirst,v2,-,h⟩
  · rw [h] at hok ⊢
    exact ⟨hok,hready' hok⟩
  · rw [h] at hok
    exact absurd hok efail_ne_sok
  · exact ⟨hfirst,(getHandle_congr h.initDone).trans (hready' hfirst)⟩

end MacPort2

namespace Held

variable {flows : List (Fin procs × U32 × U32)} {core : Fin procs} {b o : U32} {g : Grant}

/-- A flow with another offset is given to the core. -/
theorem append (h : Held core flows g) (ho : o ≠ g.rxFlowIdxOffset) :
    Held core (flows ++ [(core,b,o)]) g := by
  refine ⟨List.mem_append_left _ h.given,?_⟩
  intro f hf hcore hoff
  rcases List.mem_append.mp hf with hold | hnew
  · exact h.unique f hold hcore hoff
  · obtain rfl := List.mem_singleton.mp hnew
    exact absurd hoff ho

/-- The flow is given to a core that has none with the offset. -/
theorem fresh (hfree : ∀ f ∈ flows, f.1 = core → f.2.2 ≠ g.rxFlowIdxOffset) :
    Held core (flows ++ [(core,g.rxFlowIdxBase,g.rxFlowIdxOffset)]) g := by
  refine ⟨List.mem_append_right _ (List.mem_singleton_self _),?_⟩
  intro f hf hcore hoff
  rcases List.mem_append.mp hf with hold | hnew
  · exact absurd hoff (hfree f hold hcore)
  · exact List.mem_singleton.mp hnew

/-- A flow with another offset is taken back. -/
theorem of_mem_iff {flows' : List (Fin procs × U32 × U32)} {f₀ : Fin procs × U32 × U32}
    (h : Held core flows g) (hne : f₀.2.2 ≠ g.rxFlowIdxOffset)
    (hmem : ∀ f, f ∈ flows' ↔ f ∈ flows ∧ f ≠ f₀) : Held core flows' g := by
  refine ⟨(hmem _).mpr ⟨h.given,?_⟩,fun f hf => h.unique f ((hmem f).mp hf).1⟩
  rintro rfl
  exact hne rfl

end Held

section Frees

variable (policers : U32 → U32 → List μ) {w : World procs} {core : Fin procs} {i : Slot}
  {v rel o : U32} (base : U32) (x : FlowOutcomes μ)

/-- On a ready server the look-up by offset always succeeds. -/
theorem getRelFlowIdx_eq (hready : getHandle w.server = sok) (v o : U32) :
    getRelFlowIdx w.server v o 0#32 = (sok,(getRelFlowIdx w.server v o 0#32).2) := by
  unfold getRelFlowIdx
  split
  · rfl
  · rw [hready]

/-- What every FREE_RX of a client does, whatever its calls return. -/
theorem free_common (hready : getHandle w.server = sok)
    (hv : (w.client core i).virtPort = v) (hrel : getRelFlowIdx w.server v o 0#32 = (sok,rel)) :
    let h := freeRxHandlerCb policers w x core i base o
    h.calls = (rxFlowPolicers policers x w.server v rel).map .delete ∧
      h.writes = tableWrites w.server v rel invalidFlowIdxOffset ∧
      h.world.server.virtPortCfg =
        (storeRxFlowOffset w v rel invalidFlowIdxOffset).server.virtPortCfg ∧
      h.world.server.initDone = w.server.initDone := by
  unfold freeRxHandlerCb
  simp only [hready,hv,hrel,if_true]
  split_ifs <;> exact ⟨rfl,rfl,rfl,rfl⟩

/-- A FREE_RX succeeds exactly when all its stages do. -/
theorem free_ok_iff (hready : getHandle w.server = sok)
    (hv : (w.client core i).virtPort = v) (hrel : getRelFlowIdx w.server v o 0#32 = (sok,rel)) :
    (freeRxHandlerCb policers w x core i base o).status = sok ↔
      lastStatus (getRxFlowInfo w.server v rel)
          (policerRounds x (rxFlowPolicers policers x w.server v rel)) = sok ∧
        base = x.startFlowIdx ∧ x.freeStatus = sok := by
  unfold freeRxHandlerCb
  simp only [hready,hv,hrel,if_true]
  rw [← validateStartIdx_ok_iff]
  split_ifs with hpol hbase hfree
  · exact iff_of_true rfl ⟨hpol,hbase,hfree⟩
  · exact iff_of_false hfree fun h => hfree h.2.2
  · exact iff_of_false hbase fun h => hbase h.2.1
  · exact iff_of_false hpol fun h => hpol h.1

/-- A FREE_RX gives the core's flows with the offset back when it succeeds,
and none when it fails. -/
theorem free_flows (hready : getHandle w.server = sok)
    (hv : (w.client core i).virtPort = v) (hrel : getRelFlowIdx w.server v o 0#32 = (sok,rel)) :
    let h := freeRxHandlerCb policers w x core i base o
    h.world.platform.rxFlows =
      if h.status = sok then (takeBack core (isFlowAt o) w.platform).rxFlows
      else w.platform.rxFlows := by
  unfold freeRxHandlerCb
  simp only [hready,hv,hrel,if_true]
  split_ifs
  all_goals first
    | rfl
    | exact absurd rfl ‹¬ _›

/-- A FREE_RX of an outstanding allocation releases it exactly when the
calls succeed. -/
theorem released_iff {g : Grant} (h : GrantOk core w g)
    (hport : (w.client core i).virtPort = g.virtPort) :
    Released policers core w g (freeRxHandlerCb policers w x core i base g.rxFlowIdxOffset) ↔
      FreeSucceeds policers g.virtPort g.relFlowIdx base x := by
  have hrel := h.saved.rel 0#32
  have hok := free_ok_iff policers base x h.saved.ready hport hrel
  rw [h.saved.info,h.saved.flowPolicers] at hok
  constructor
  · intro hreleased
    obtain ⟨hpol,hbase,hfree⟩ := hok.mp hreleased.status
    exact ⟨hpol,hbase,hfree⟩
  · intro hcalls
    have hstatus := hok.mpr ⟨hcalls.policers,hcalls.base,hcalls.free⟩
    obtain ⟨hdel,hwrites,htable,-⟩ :=
      free_common policers base x h.saved.ready hport hrel
    have hflows :=
      free_flows policers base x h.saved.ready hport hrel
    rw [h.saved.flowPolicers] at hdel
    rw [h.saved.writes,← h.former] at hwrites
    rw [← h.former] at htable
    refine ⟨hstatus,hdel,hwrites,fun wr hwr => ?_,htable,fun f => ?_⟩
    · rw [tableEntry_congr htable]
      exact (h.written wr hwr).restored (by rw [h.saved.tableEntry]; rfl)
    · rw [hflows,if_pos hstatus]
      exact mem_freed_iff h.held f

/-- Outstanding allocations that are in step can be released. -/
theorem releasable_of_inv {s : FlowServer procs} (h : Inv core s) :
    Releasable policers core s := by
  intro g hg i x base hport hcalls hbase
  exact (released_iff policers base x (h.grants g hg) hport).mpr
    ⟨hcalls.lastStatus _,hbase,hcalls.free⟩

/-- A flow whose entry is free, or that has no table, is written in bounds. -/
theorem FreeHarmless.inBounds {s : Server procs}
    (h : FreeHarmless policers s v rel base x) {wr : TableWrite}
    (hwr : wr ∈ tableWrites s v rel invalidFlowIdxOffset) :
    (tableEntry s wr.virtPort wr.relFlowIdx).isSome := by
  unfold tableWrites at hwr
  split at hwr
  · next hsome =>
    obtain rfl := List.mem_singleton.mp hwr
    rcases h.entry with he | hn
    · rw [he]
      rfl
    · rw [hn] at hsome
      cases hsome
  · cases hwr

/-- A harmless FREE_RX fails. -/
theorem FreeHarmless.fails (hready : getHandle w.server = sok)
    (hv : (w.client core i).virtPort = v) (hrel : getRelFlowIdx w.server v o 0#32 = (sok,rel))
    (h : FreeHarmless policers w.server v rel base x) :
    (freeRxHandlerCb policers w x core i base o).status ≠ sok := by
  intro hstatus
  obtain ⟨hinfo,hbase,hfree⟩ := (free_ok_iff policers base x hready hv hrel).mp hstatus
  rw [h.policers] at hinfo
  rcases h.refused with hne | hne | hne
  · exact hne hinfo
  · exact hne hbase
  · exact hne hfree

/-- A FREE_RX stays in bounds, fails and changes nothing exactly when it
leads to a free entry without policers and is refused. -/
theorem free_harmless_iff (hready : getHandle w.server = sok)
    (hv : (w.client core i).virtPort = v) (hrel : getRelFlowIdx w.server v o 0#32 = (sok,rel)) :
    let h := freeRxHandlerCb policers w x core i base o
    ((∀ wr ∈ h.writes, (tableEntry w.server wr.virtPort wr.relFlowIdx).isSome) ∧
        h.status ≠ sok ∧ Untouched w h) ↔
      FreeHarmless policers w.server v rel base x := by
  intro h
  obtain ⟨hcalls,hwrites,htable,-⟩ :=
    free_common policers base x hready hv hrel
  have hok := free_ok_iff policers base x hready hv hrel
  have hflows := free_flows policers base x hready hv hrel
  constructor
  · rintro ⟨hin,hfail,hsame⟩
    have hnone : rxFlowPolicers policers x w.server v rel = [] :=
      List.map_eq_nil_iff.mp (hcalls.symm.trans hsame.calls)
    refine ⟨?_,hnone,?_⟩
    · cases hc : findCfg w.server v with
      | none => exact Or.inr rfl
      | some c =>
        rw [tableWrites_ok hc] at hwrites
        have hentry := hin ⟨v,rel,invalidFlowIdxOffset⟩ (by rw [hwrites]; simp)
        exact Or.inl (entry_of_save_same hentry (htable.symm.trans hsame.table))
    · by_contra hall
      simp only [not_or,not_not] at hall
      refine hfail (hok.mpr ⟨?_,hall.2.1,hall.2.2⟩)
      rw [hnone]
      exact hall.1
  · intro hharm
    have hfail : h.status ≠ sok := FreeHarmless.fails policers base x hready hv hrel hharm
    refine ⟨?_,hfail,?_,?_,?_⟩
    · intro wr hwr
      rw [hwrites] at hwr
      exact FreeHarmless.inBounds policers base x hharm hwr
    · rw [htable]
      exact save_same hharm.entry
    · rw [hcalls,hharm.policers]
      rfl
    · rw [hflows]
      exact if_neg hfail

end Frees

section Steps

variable {policers : U32 → U32 → List μ} {s : FlowServer procs} {core : Fin procs} {i : Slot}
  {token v r o base : U32} {x : FlowOutcomes μ} {macOnly : Bool}

theorem portOf_eq (hget : getClient s.world core token = some i) :
    portOf s.world core token = some (s.world.client core i).virtPort := by
  unfold portOf
  rw [hget]
  rfl

/-- A request that fails and leaves the world alone. -/
structure Idle (s : FlowServer procs) (h : FlowHandled procs μ) : Prop where
  /-- It fails. -/
  status : h.status ≠ sok
  /-- The world is the same. -/
  world : h.world = s.world
  /-- No policer call is made. -/
  calls : h.calls = []
  /-- Nothing is written. -/
  writes : h.writes = []

theorem Idle.serve {e : FlowEvent μ}
    (h : Idle s (flowRequestHandler policers s.world core macOnly e)) :
    serve macOnly policers core s e = s := by
  unfold ProxyServerRxFlows.serve
  simp only [h.world,if_neg h.status]

theorem idle_unknown (s : FlowServer procs) : Idle (μ := μ) s ⟨⟨s.world,efail,{}⟩,[],[]⟩ :=
  ⟨efail_ne_sok,rfl,rfl,rfl⟩

/-- An offset that is looked up where it was written is in no earlier
entry. -/
theorem notMem_take_of_rel {s : Server procs} {c : VirtPortCfg} {old : U32}
    (hc : findCfg s v = some (setOffset c r o)) (hr : r.toNat < c.rxFlowIdxOffset.length)
    (hrel : (getRelFlowIdx s v o old).2 = r) : o ∉ c.rxFlowIdxOffset.take r.toNat := by
  have hmem : (c.rxFlowIdxOffset.set r.toNat o)[r.toNat]? = some o := List.getElem?_set_self hr
  refine (idxOf?_set_self.mp ?_).2
  unfold getRelFlowIdx at hrel
  rw [hc,Option.bind_some] at hrel
  cases hidx : (c.rxFlowIdxOffset.set r.toNat o).idxOf? o with
  | none => exact absurd (List.mem_of_getElem? hmem) (List.idxOf?_eq_none_iff.mp hidx)
  | some j =>
    simp only [setOffset,hidx] at hrel
    obtain ⟨hj,-,hfirst⟩ := List.idxOf?_eq_some_iff.mp hidx
    have hle : j ≤ r.toNat := by
      by_contra hlt
      exact hfirst r.toNat (by omega) (by simp)
    have hnat := congrArg BitVec.toNat hrel
    rw [BitVec.toNat_ofNat,Nat.mod_eq_of_lt (by omega)] at hnat
    rw [hnat]

/-- An allocation that fits its state is in step, and so are the others. -/
theorem inv_alloc (h : Inv core s) (hget : getClient s.world core token = some i)
    (hfree : GivesFreeFlow core s (.allocRx token r x)) (hready : getHandle s.world.server = sok)
    (hflow : x.rxFlowStatus = sok)
    (hfits : AllocFits policers s.world.server (s.world.client core i).virtPort r x)
    (hdone : Allocated core s.world (s.world.client core i).virtPort r x
      (serveAllocRx policers s.world x core i macOnly r)) :
    Inv core (serve macOnly policers core s (.allocRx token r x)) := by
  obtain ⟨c,hc,hr,hentry,hfirst⟩ := hfits.entry
  obtain ⟨hvalid,hfresh⟩ := hfree hflow
  have hcell : tableEntry s.world.server (s.world.client core i).virtPort r =
      some invalidFlowIdxOffset := (tableEntry_eq hc).trans hentry
  unfold serve
  simp only [flowRequestHandler,hget,hdone.status,if_true,grantsAfter,portOf_eq hget]
  have hold : ∀ g ∈ s.grants, x.rxFlowIdxOffset ≠ g.rxFlowIdxOffset := by
    intro g hg he
    exact hfresh _ (h.grants g hg).held.given rfl he.symm
  refine ⟨?_,?_⟩
  · intro g hg
    rcases List.mem_append.mp hg with hg | hg
    · have hgok := h.grants g hg
      have hother : tableEntry s.world.server (s.world.client core i).virtPort r ≠
          some g.rxFlowIdxOffset := by
        rw [hcell]
        exact fun he => hgok.valid (Option.some.inj he).symm
      refine ⟨Saved.of_eq (hgok.saved.store (hold g hg) hother) hdone.initDone hdone.table,?_,
        hgok.former,fun wr hwr => ((hgok.written wr hwr).store hother).of_eq hdone.table,
        hgok.valid⟩
      rw [hdone.flows]
      exact hgok.held.append (hold g hg)
    · obtain rfl := List.mem_singleton.mp hg
      have hbefore : entryBefore s.world.server (s.world.client core i).virtPort r =
          invalidFlowIdxOffset := by
        rw [entryBefore,hcell]
        rfl
      refine ⟨Saved.of_eq (s := (storeRxFlowOffset s.world (s.world.client core i).virtPort r
        x.rxFlowIdxOffset).server) ⟨hready,setOffset c r x.rxFlowIdxOffset,findCfg_store_self hc,
          hr,?_⟩ hdone.initDone hdone.table,?_,hbefore,?_,hvalid⟩
      · exact idxOf?_set_self.mpr ⟨(List.getElem?_eq_some_iff.mp hentry).1,hfirst⟩
      · rw [hdone.flows]
        exact Held.fresh (g := ⟨_,r,x.rxFlowIdxBase,x.rxFlowIdxOffset,_,_⟩) hfresh
      · intro wr hwr
        obtain ⟨wr',hwr',rfl⟩ := List.mem_map.mp hwr
        obtain ⟨hidx,hport | ⟨hport,hthere⟩⟩ := hdone.writes wr' hwr'
        · left
          simp only [hidx,hport]
        · refine Or.inr ⟨hport,?_,?_⟩
          · simp only [hidx,entryBefore,hthere,Option.getD_some]
          · rw [tableEntry_congr hdone.table,tableEntry_store_of_ne hport,hidx]
            exact hthere
  · rw [List.map_append,List.nodup_append]
    refine ⟨h.nodup,List.nodup_singleton _,?_⟩
    intro a ha b hb
    obtain ⟨g,hg,rfl⟩ := List.mem_map.mp ha
    obtain rfl := List.mem_singleton.mp hb
    exact (hold g hg).symm

/-- A right allocation request with a flow from the resource manager succeeds. -/
theorem alloc_status_of_stepOk (hget : getClient s.world core token = some i)
    (hready : getHandle s.world.server = sok) (hflow : x.rxFlowStatus = sok)
    (hstep : StepOk macOnly policers core s (.allocRx token r x)) :
    (serveAllocRx policers s.world x core i macOnly r).status = sok := by
  have hflows := serve_flows policers core i r macOnly hready hflow
  have hstatus := hstep.2
  simp only [flowRequestHandler,hget] at hstatus
  rcases hstatus with hok | ⟨-,hsame⟩
  · exact hok
  · rw [hflows] at hsame
    exact absurd hsame (by simp)

/-- The allocation that a request has just made. -/
def lastGrant (macOnly : Bool) (policers : U32 → U32 → List μ) (s : FlowServer procs)
    (core : Fin procs) (i : Slot) (r : U32) (x : FlowOutcomes μ) : Grant :=
  ⟨(s.world.client core i).virtPort,r,x.rxFlowIdxBase,x.rxFlowIdxOffset,
    entryBefore s.world.server (s.world.client core i).virtPort r,
    (serveAllocRx policers s.world x core i macOnly r).writes.map fun wr => { wr with
      rxFlowIdxOffset := entryBefore s.world.server wr.virtPort wr.relFlowIdx }⟩

/-- The client frees the flow at once, with calls that succeed. -/
theorem released_at_once (hget : getClient s.world core token = some i)
    (hok : (serveAllocRx policers s.world x core i macOnly r).status = sok)
    (hP : Releasable policers core (serve macOnly policers core s (.allocRx token r x))) :
    let w' := (serveAllocRx policers s.world x core i macOnly r).world
    Released policers core w' (lastGrant macOnly policers s core i r x)
      (freeRxHandlerCb policers w' { x with policerStatus := [], freeStatus := sok } core i
        x.startFlowIdx x.rxFlowIdxOffset) := by
  have hworld : (serve macOnly policers core s (.allocRx token r x)).world =
      (serveAllocRx policers s.world x core i macOnly r).world := by
    simp only [serve,flowRequestHandler,hget]
  have hreleased := hP (lastGrant macOnly policers s core i r x)
    (by simp [serve,flowRequestHandler,hget,hok,grantsAfter,portOf_eq hget,lastGrant])
    i { x with policerStatus := [], freeStatus := sok } x.startFlowIdx
    (by
      rw [hworld]
      exact (serve_sameClients policers core i r macOnly).virtPort core i) ⟨by simp,rfl⟩ rfl
  rw [hworld] at hreleased
  exact hreleased

/-- What the release of the last allocation writes, and into what. -/
theorem free_at_once (hready : getHandle s.world.server = sok) (hflow : x.rxFlowStatus = sok)
    (hok : (serveAllocRx policers s.world x core i macOnly r).status = sok) :
    let w' := (serveAllocRx policers s.world x core i macOnly r).world
    let h := freeRxHandlerCb policers w' { x with policerStatus := [], freeStatus := sok } core i
      x.startFlowIdx x.rxFlowIdxOffset
    let v := (s.world.client core i).virtPort
    let rel := (getRelFlowIdx w'.server v x.rxFlowIdxOffset 0#32).2
    h.writes = tableWrites w'.server v rel invalidFlowIdxOffset ∧
      h.world.server.virtPortCfg =
        (storeRxFlowOffset w' v rel invalidFlowIdxOffset).server.virtPortCfg := by
  intro w' h v rel
  have hready' := (alloc_of_serve_ok policers core i r macOnly hready hflow hok).2
  have hsame : SameClients s.world w' := serve_sameClients policers core i r macOnly
  obtain ⟨-,hwrites,htable,-⟩ := free_common policers x.startFlowIdx
    { x with policerStatus := [], freeStatus := sok } hready' (hsame.virtPort core i)
    (getRelFlowIdx_eq hready' v x.rxFlowIdxOffset)
  exact ⟨hwrites,htable⟩

/-- The allocation that a request has just made can be released only when
it fits its state. -/
theorem fits_of_releasable (hget : getClient s.world core token = some i)
    (hready : getHandle s.world.server = sok) (hflow : x.rxFlowStatus = sok)
    (hP : Releasable policers core (serve macOnly policers core s (.allocRx token r x)))
    (hstep : StepOk macOnly policers core s (.allocRx token r x)) :
    AllocFits policers s.world.server (s.world.client core i).virtPort r x := by
  have hok := alloc_status_of_stepOk hget hready hflow hstep
  have hfirst := (alloc_of_serve_ok policers core i r macOnly hready hflow hok).1
  obtain ⟨hbase,hinfo,hlast⟩ := (alloc_ok_iff policers core i r hready hflow).mp hfirst
  have hwrites := (alloc_saved policers core i r hready hflow hbase).2.2
  have hfree := (free_at_once hready hflow hok).1.symm.trans
    (released_at_once hget hok hP).writes
  cases hc : findCfg s.world.server (s.world.client core i).virtPort with
  | none =>
    have hnone := findCfg_serve policers core i r macOnly hready hflow hbase hok hc
    simp [tableWrites,hnone] at hfree
  | some c =>
    have hsome := findCfg_serve policers core i r macOnly hready hflow hbase hok hc
    rw [tableWrites_ok hsome] at hfree
    obtain ⟨-,hidx,hformer⟩ := TableWrite.mk.inj (List.singleton_inj.mp hfree)
    have hr : r < c.numRxFlow := by
      by_contra hr
      simp [getRxFlowInfo,hc,hr,ebadArgs,sok] at hinfo
    rw [rxFlowPolicers_ok hc hr] at hlast
    have hin : (tableEntry s.world.server (s.world.client core i).virtPort r).isSome := by
      have hbounds := hstep.1
      simp only [flowRequestHandler,hget] at hbounds
      refine hbounds ⟨(s.world.client core i).virtPort,r,x.rxFlowIdxOffset⟩
        (mem_serve_writes policers core i r macOnly ?_)
      rw [hwrites,tableWrites_ok hc]
      exact List.mem_singleton_self _
    obtain ⟨e,he⟩ := Option.isSome_iff_exists.mp hin
    simp only [lastGrant,entryBefore,he,Option.getD_some] at hformer
    rw [tableEntry_eq hc] at he
    refine ⟨hbase,⟨c,hc,hr,?_,?_⟩,hlast⟩
    · rw [he]
      exact congrArg some hformer.symm
    · exact notMem_take_of_rel hsome (List.getElem?_eq_some_iff.mp he).1 hidx

/-- In a build with MAC-only ports it restores the second entry only when that
held the offset before. -/
theorem macPort2_of_releasable (hget : getClient s.world core token = some i)
    (hready : getHandle s.world.server = sok) (hflow : x.rxFlowStatus = sok)
    (hP : Releasable policers core (serve true policers core s (.allocRx token r x)))
    (hstep : StepOk true policers core s (.allocRx token r x)) :
    MacPort2Fits core s.world (s.world.client core i).virtPort r x.rxFlowIdxOffset := by
  have hok := alloc_status_of_stepOk hget hready hflow hstep
  have hfirst := (alloc_of_serve_ok policers core i r true hready hflow hok).1
  have hbase := ((alloc_ok_iff policers core i r hready hflow).mp hfirst).1
  have hcfg := (alloc_saved policers core i r hready hflow hbase).1
  rcases serveAllocRx_cases policers core i r true s.world x with
    ⟨-,h⟩ | ⟨-,-,h⟩ | ⟨-,-,v2,hport,h⟩
  · exact absurd hfirst (h rfl)
  · rw [h] at hok
    exact absurd hok efail_ne_sok
  · refine ⟨v2,hport,?_⟩
    by_cases hv : v2 = (s.world.client core i).virtPort
    · exact Or.inl hv
    right
    cases hc : findCfg s.world.server v2 with
    | none => exact Or.inl rfl
    | some c =>
      right
      have hsaved : findCfg (allocRxHandlerCb policers s.world x core i r).world.server v2 =
          some c := by
        rw [findCfg_congr hcfg,findCfg_store,if_neg hv,hc]
      have hwr : ⟨v2,r,x.rxFlowIdxOffset⟩ ∈
          (serveAllocRx policers s.world x core i true r).writes := by
        rw [h.writes,tableWrites_ok hsaved]
        exact List.mem_append_right _ (List.mem_singleton_self _)
      have hbounds := hstep.1
      simp only [flowRequestHandler,hget] at hbounds
      obtain ⟨e,he⟩ := Option.isSome_iff_exists.mp (hbounds _ hwr)
      have hrestored := (released_at_once hget hok hP).restored
        ⟨v2,r,entryBefore s.world.server v2 r⟩ (List.mem_map_of_mem hwr)
      -- the release of the flow does not touch the second port
      rw [tableEntry_congr (free_at_once hready hflow hok).2,tableEntry_store_of_ne hv,
        tableEntry_congr h.table,tableEntry_store_self,entryBefore,he] at hrestored
      · rw [he,Option.some.inj hrestored]
        rfl
      · rw [tableEntry_congr hcfg,tableEntry_store_of_ne hv,he]
        rfl

/-- An ALLOC_RX without a ready server or a flow is idle. -/
theorem alloc_idle (h : ¬ (getHandle s.world.server = sok ∧ x.rxFlowStatus = sok)) :
    Idle s (serveAllocRx policers s.world x core i macOnly r) := by
  have hfirst : Idle s (allocRxHandlerCb policers s.world x core i r) := by
    unfold allocRxHandlerCb
    by_cases hready : getHandle s.world.server = sok
    · have hflow : x.rxFlowStatus ≠ sok := fun hflow => h ⟨hready,hflow⟩
      rw [if_pos hready,if_neg hflow]
      exact ⟨hflow,rfl,rfl,rfl⟩
    · rw [if_neg hready]
      exact ⟨hready,rfl,rfl,rfl⟩
  have hsame : serveAllocRx policers s.world x core i macOnly r =
      allocRxHandlerCb policers s.world x core i r := by
    unfold serveAllocRx saveForMacPort2
    dsimp only
    rw [if_neg hfirst.status,ite_self]
  rw [hsame]
  exact hfirst

/-- An ALLOC_RX is idle, or it is that of a client whom the resource
manager of a ready server gives a flow. -/
theorem alloc_cases (macOnly : Bool) (policers : U32 → U32 → List μ) (s : FlowServer procs)
    (core : Fin procs) (token r : U32) (x : FlowOutcomes μ) :
    Idle s (flowRequestHandler policers s.world core macOnly (.allocRx token r x)) ∨
      ∃ i, getClient s.world core token = some i ∧ getHandle s.world.server = sok ∧
        x.rxFlowStatus = sok := by
  cases hget : getClient s.world core token with
  | none =>
    left
    simp only [flowRequestHandler,hget]
    exact idle_unknown s
  | some i =>
    by_cases hgo : getHandle s.world.server = sok ∧ x.rxFlowStatus = sok
    · exact Or.inr ⟨i,rfl,hgo⟩
    · left
      simp only [flowRequestHandler,hget]
      exact alloc_idle hgo

/-- A FREE_RX is idle, for want of a client or of a ready server, or it is
that of a client of a ready server. -/
theorem free_cases (macOnly : Bool) (policers : U32 → U32 → List μ) (s : FlowServer procs)
    (core : Fin procs) (token base o : U32) (x : FlowOutcomes μ) :
    Idle s (flowRequestHandler policers s.world core macOnly (.freeRx token base o x)) ∧
        (∀ v, portOf s.world core token = some v → getHandle s.world.server ≠ sok) ∨
      ∃ i, getClient s.world core token = some i ∧ getHandle s.world.server = sok := by
  cases hget : getClient s.world core token with
  | none =>
    refine Or.inl ⟨?_,fun v hv => ?_⟩
    · simp only [flowRequestHandler,hget]
      exact idle_unknown s
    · simp [portOf,hget] at hv
  | some i =>
    by_cases hready : getHandle s.world.server = sok
    · exact Or.inr ⟨i,rfl,hready⟩
    · refine Or.inl ⟨?_,fun _ _ => hready⟩
      simp only [flowRequestHandler,hget]
      unfold freeRxHandlerCb
      rw [if_neg hready]
      exact ⟨hready,rfl,rfl,rfl⟩

/-- An allocation named by a port and an offset. -/
theorem names_iff {g : Grant} :
    g.names v o = true ↔ g.virtPort = v ∧ g.rxFlowIdxOffset = o := by
  simp [Grant.names]

/-- The only outstanding allocation that a port and an offset name. -/
theorem eq_of_names (h : Inv core s) {g g' : Grant} (hg : g ∈ s.grants) (hg' : g' ∈ s.grants)
    (hname : g.names v o = true) (hname' : g'.names v o = true) : g' = g :=
  List.inj_on_of_nodup_map h.nodup hg' hg
    ((names_iff.mp hname').2.trans (names_iff.mp hname).2.symm)

/-- The others stay in step when an outstanding allocation is released. -/
theorem inv_free (h : Inv core s) (hget : getClient s.world core token = some i) {g : Grant}
    (hg : g ∈ s.grants) (hport : (s.world.client core i).virtPort = g.virtPort)
    (hcalls : FreeSucceeds policers g.virtPort g.relFlowIdx base x) :
    Inv core (serve macOnly policers core s (.freeRx token base g.rxFlowIdxOffset x)) := by
  have hgok := h.grants g hg
  have hreleased := (released_iff policers base x hgok hport).mpr hcalls
  have hinit := (free_common policers base x hgok.saved.ready hport
    (hgok.saved.rel 0#32)).2.2.2
  have htable := hreleased.table
  rw [hgok.former] at htable
  unfold serve
  simp only [flowRequestHandler,hget,hreleased.status,if_true,grantsAfter,portOf_eq hget,hport]
  refine ⟨?_,h.nodup.sublist (List.filter_sublist.map _)⟩
  intro g' hg'
  obtain ⟨hmem,hname⟩ := List.mem_filter.mp hg'
  have hgok' := h.grants g' hmem
  have hne : g.rxFlowIdxOffset ≠ g'.rxFlowIdxOffset := by
    intro he
    obtain rfl := List.inj_on_of_nodup_map h.nodup hg hmem he
    simp [Grant.names] at hname
  have hother : tableEntry s.world.server g.virtPort g.relFlowIdx ≠ some g'.rxFlowIdxOffset := by
    rw [hgok.saved.tableEntry]
    exact fun he => hne (Option.some.inj he)
  exact ⟨Saved.of_eq (hgok'.saved.store hgok'.valid.symm hother) hinit htable,
    hgok'.held.of_mem_iff hne hreleased.flows,hgok'.former,
    fun wr hwr => ((hgok'.written wr hwr).store hother).of_eq htable,hgok'.valid⟩

/-- The allocations stay in step when a FREE_RX of another offset changes
nothing. -/
theorem inv_untouched (h : Inv core s) (hget : getClient s.world core token = some i)
    (hready : getHandle s.world.server = sok)
    (hfail : (freeRxHandlerCb policers s.world x core i base o).status ≠ sok)
    (hsame : Untouched s.world (freeRxHandlerCb policers s.world x core i base o)) :
    Inv core (serve macOnly policers core s (.freeRx token base o x)) := by
  have hinit := (free_common policers base x hready rfl
    (getRelFlowIdx_eq hready (s.world.client core i).virtPort o)).2.2.2
  unfold serve
  simp only [flowRequestHandler,hget,if_neg hfail]
  refine ⟨fun g hg => ?_,h.nodup⟩
  have hgok := h.grants g hg
  refine ⟨hgok.saved.of_eq hinit hsame.table,?_,hgok.former,
    fun wr hwr => (hgok.written wr hwr).of_eq hsame.table,hgok.valid⟩
  simp only [hsame.flows]
  exact hgok.held

/-- The condition on a FREE_RX of a client of a ready server. -/
theorem regular_free_iff (hget : getClient s.world core token = some i)
    (hready : getHandle s.world.server = sok) :
    Regular macOnly policers core s (.freeRx token base o x) ↔
      if s.grants.any fun g => g.names (s.world.client core i).virtPort o then
        FreeSucceeds policers (s.world.client core i).virtPort
          (getRelFlowIdx s.world.server (s.world.client core i).virtPort o 0#32).2 base x
      else FreeHarmless policers s.world.server (s.world.client core i).virtPort
        (getRelFlowIdx s.world.server (s.world.client core i).virtPort o 0#32).2 base x := by
  simp only [Regular,portOf_eq hget,Option.some.injEq,forall_eq',hready,forall_const]

/-- A FREE_RX of an outstanding allocation, or of an offset that its port
has not been given. -/
theorem names_cases (h : Inv core s) (v o : U32) :
    (∃ g ∈ s.grants, g.virtPort = v ∧ g.rxFlowIdxOffset = o ∧
        (getRelFlowIdx s.world.server v o 0#32).2 = g.relFlowIdx ∧
        (s.grants.any fun g => g.names v o) = true) ∨
      (∀ g ∈ s.grants, g.names v o = false) ∧ (s.grants.any fun g => g.names v o) = false := by
  by_cases hany : (s.grants.any fun g => g.names v o) = true
  · obtain ⟨g,hg,hname⟩ := List.any_eq_true.mp hany
    obtain ⟨rfl,rfl⟩ := names_iff.mp hname
    exact Or.inl ⟨g,hg,rfl,rfl,congrArg Prod.snd ((h.grants g hg).saved.rel 0#32),hany⟩
  · have hnone := Bool.eq_false_iff.mpr hany
    exact Or.inr ⟨fun g hg => by simpa using List.any_eq_false.mp hnone g hg,hnone⟩

/-- A regular request keeps the allocations in step. -/
theorem inv_serve (h : Inv core s) {e : FlowEvent μ} (hfree : GivesFreeFlow core s e)
    (hregular : Regular macOnly policers core s e) :
    Inv core (serve macOnly policers core s e) := by
  cases e with
  | allocRx token r x =>
    rcases alloc_cases macOnly policers s core token r x with hi | ⟨i,hget,hready,hflow⟩
    · rw [hi.serve]
      exact h
    · obtain ⟨hfits,hmac⟩ := hregular _ (portOf_eq hget) hready hflow
      exact inv_alloc h hget hfree hready hflow hfits
        (allocated_of_fits policers core i r macOnly hready hflow hfits hmac)
  | freeRx token base o x =>
    rcases free_cases macOnly policers s core token base o x with ⟨hi,-⟩ | ⟨i,hget,hready⟩
    · rw [hi.serve]
      exact h
    · rw [regular_free_iff hget hready] at hregular
      rcases names_cases h (s.world.client core i).virtPort o with
        ⟨g,hg,hport,rfl,hrel,hany⟩ | ⟨-,hany⟩
      · rw [if_pos hany,hrel,← hport] at hregular
        exact inv_free h hget hg hport.symm hregular
      · rw [hany] at hregular
        have hharm := (free_harmless_iff policers base x hready
          (rfl : (s.world.client core i).virtPort = _) (getRelFlowIdx_eq hready _ o)).mpr hregular
        exact inv_untouched h hget hready hharm.2.1 hharm.2.2

/-- A regular request does what it must. -/
theorem stepOk_of_regular (h : Inv core s) {e : FlowEvent μ} (hfree : GivesFreeFlow core s e)
    (hregular : Regular macOnly policers core s e) : StepOk macOnly policers core s e := by
  cases e with
  | allocRx token r x =>
    rcases alloc_cases macOnly policers s core token r x with hi | ⟨i,hget,hready,hflow⟩
    · exact ⟨by rw [hi.writes]; simp,Or.inr ⟨by rw [hi.world],by rw [hi.world]⟩⟩
    · obtain ⟨hfits,hmac⟩ := hregular _ (portOf_eq hget) hready hflow
      have hdone := allocated_of_fits policers core i r macOnly hready hflow hfits hmac
      obtain ⟨c,hc,-,hentry,-⟩ := hfits.entry
      unfold StepOk
      simp only [flowRequestHandler,hget]
      refine ⟨fun wr hwr => ?_,Or.inl hdone.status⟩
      obtain ⟨hidx,hport | ⟨-,hthere⟩⟩ := hdone.writes wr hwr
      · rw [hidx,hport,tableEntry_eq hc,hentry]
        rfl
      · rw [hidx,hthere]
        rfl
  | freeRx token base o x =>
    rcases free_cases macOnly policers s core token base o x with ⟨hi,hnot⟩ | ⟨i,hget,hready⟩
    · refine ⟨by rw [hi.writes]; simp,fun v hv => ⟨fun g hg _ => ?_,fun _ => ?_⟩⟩
      · exact absurd (h.grants g hg).saved.ready (hnot v hv)
      · exact ⟨hi.status,by rw [hi.world],hi.calls,by rw [hi.world]⟩
    · rw [regular_free_iff hget hready] at hregular
      unfold StepOk
      simp only [flowRequestHandler,hget,portOf_eq hget,Option.some.injEq,forall_eq']
      rcases names_cases h (s.world.client core i).virtPort o with
        ⟨g,hg,hport,rfl,hrel,hany⟩ | ⟨hnone,hany⟩
      · rw [if_pos hany,hrel,← hport] at hregular
        have hreleased := (released_iff policers base x (h.grants g hg) hport.symm).mpr hregular
        refine ⟨?_,fun g' hg' hname => ?_,fun hnone => ?_⟩
        · rw [hreleased.writes]
          intro wr hwr
          obtain rfl := List.mem_singleton.mp hwr
          rw [(h.grants g hg).saved.tableEntry]
          rfl
        · obtain rfl := eq_of_names h hg hg' (names_iff.mpr ⟨hport,rfl⟩) hname
          exact hreleased
        · have hname := hnone g hg
          rw [names_iff.mpr ⟨hport,rfl⟩] at hname
          cases hname
      · rw [hany] at hregular
        have hharm := (free_harmless_iff policers base x hready
          (rfl : (s.world.client core i).virtPort = _) (getRelFlowIdx_eq hready _ o)).mpr hregular
        refine ⟨hharm.1,fun g hg hname => ?_,fun _ => hharm.2⟩
        rw [hnone g hg] at hname
        cases hname

/-- A request keeps the allocations releasable and does what it must
exactly when it is regular. -/
theorem serve_exact (h : Inv core s) {e : FlowEvent μ} (hfree : GivesFreeFlow core s e) :
    Releasable policers core (serve macOnly policers core s e) ∧ StepOk macOnly policers core s e ↔
      Regular macOnly policers core s e := by
  refine ⟨fun hright => ?_,fun hregular =>
    ⟨releasable_of_inv policers (inv_serve h hfree hregular),stepOk_of_regular h hfree hregular⟩⟩
  obtain ⟨hP,hstep⟩ := hright
  cases e with
  | allocRx token r x =>
    intro v hv hready hflow
    obtain ⟨i,hget,rfl⟩ := Option.map_eq_some_iff.mp hv
    refine ⟨fits_of_releasable hget hready hflow hP hstep,?_⟩
    rintro rfl
    exact macPort2_of_releasable hget hready hflow hP hstep
  | freeRx token base o x =>
    rcases free_cases macOnly policers s core token base o x with ⟨-,hnot⟩ | ⟨i,hget,hready⟩
    · exact fun v hv hready => absurd hready (hnot v hv)
    · unfold StepOk at hstep
      simp only [flowRequestHandler,hget,portOf_eq hget,Option.some.injEq,forall_eq'] at hstep
      rw [regular_free_iff hget hready]
      rcases names_cases h (s.world.client core i).virtPort o with
        ⟨g,hg,hport,rfl,hrel,hany⟩ | ⟨hnone,hany⟩
      · rw [if_pos hany,hrel,← hport]
        exact (released_iff policers base x (h.grants g hg) hport.symm).mp
          (hstep.2.1 g hg (names_iff.mpr ⟨hport,rfl⟩))
      · rw [hany]
        exact (free_harmless_iff policers base x hready
          (rfl : (s.world.client core i).virtPort = _) (getRelFlowIdx_eq hready _ o)).mp
            ⟨hstep.1,hstep.2.2 hnone⟩

end Steps

/-- Whatever the build and the start of the tables, in every run of ALLOC_RX and
FREE_RX of a core's clients every allocation can be released and every request
does what it must exactly when each request is regular. -/
theorem flows_in_step_iff (macOnly : Bool) (policers : U32 → U32 → List μ) (core : Fin procs)
    (w : World procs) (events : List (FlowEvent μ))
    (hfree : Guarded (serve macOnly policers core) (GivesFreeFlow core) ⟨w,[]⟩ events) :
    Along (serve macOnly policers core) (Releasable policers core) ⟨w,[]⟩ events ∧
        Guarded (serve macOnly policers core) (StepOk macOnly policers core) ⟨w,[]⟩ events ↔
      Guarded (serve macOnly policers core) (Regular macOnly policers core) ⟨w,[]⟩ events :=
  along_and_guarded_iff_of_allowed (fun _ h => releasable_of_inv policers h)
    (fun _ _ h hA hG => inv_serve h hA hG) (fun _ _ h hA => serve_exact h hA)
    ⟨by simp,List.nodup_nil⟩ hfree

/-- The requests of the resource module, which leave calls and writes out,
are these requests. -/
theorem allocRxHandlerCb_eq (policers : U32 → U32 → List μ) (w : World procs)
    (x : FlowOutcomes μ) (core : Fin procs) (i : Slot) (r : U32) :
    (allocRxHandlerCb policers w x core i r).toHandled =
      ProxyServerResources.allocRxHandlerCb w
        { x.toResourceOutcomes with
          policerStatus := policerRounds x
            (rxFlowPolicers policers x w.server (w.client core i).virtPort r) } core i r := by
  unfold allocRxHandlerCb ProxyServerResources.allocRxHandlerCb
  dsimp only
  rw [rxFlowPolicers_store]
  split_ifs <;> rfl

theorem freeRxHandlerCb_eq (policers : U32 → U32 → List μ) (w : World procs)
    (x : FlowOutcomes μ) (core : Fin procs) (i : Slot) (base offset : U32) :
    (freeRxHandlerCb policers w x core i base offset).toHandled =
      ProxyServerResources.freeRxHandlerCb w
        { x.toResourceOutcomes with
          policerStatus := policerRounds x
            (rxFlowPolicers policers x w.server (w.client core i).virtPort
              (getRelFlowIdx w.server (w.client core i).virtPort offset 0#32).2) }
        core i base offset := by
  unfold freeRxHandlerCb ProxyServerResources.freeRxHandlerCb
  dsimp only
  split_ifs <;> rfl

/-- Calls that all succeed, for a flow with an offset. -/
def flowAt (offset : U32) : FlowOutcomes ℕ where
  toOutcomes := { plainOutcomes fun _ => 1518#32 with rxFlowIdxOffset := offset }
  policerStatus := []
  freeStatus := sok
  bytesAtNull := ⟨0#8,0#8,0#8,0#8,0#8,0#8⟩
  strayPolicers := []

/-- A virtual switch port with two flows, both marked free. -/
def twoFlows : VirtPortCfg :=
  ⟨switchPort,0,1#32,2#32,[invalidFlowIdxOffset,invalidFlowIdxOffset],1#32⟩

/-- A client of the only core on the port. -/
def oneClient : World 1 :=
  (ProxyServerIpv4.serve classD (startUp 1 false [twoFlows] fun _ => ⟨0#32,MacAddr.bcast,0#16,true⟩)
    (attachPort 25#32)).world

theorem isMacPort_macPort2 : isMacPort macPort2 = true := by decide

/-- MAC port 2 with the same flows. -/
def macTwoFlows : VirtPortCfg := { twoFlows with portId := ⟨macPort2,Or.inl isMacPort_macPort2⟩ }

/-- A client of the only core on MAC port 2. -/
def macClient : World 1 :=
  (ProxyServerIpv4.serve classD
    (startUp 1 false [macTwoFlows] fun _ => ⟨0#32,MacAddr.bcast,0#16,true⟩)
    (attachPort macPort2)).world

/-- A custom policer for the first flow. -/
def firstFlowPolicer : U32 → U32 → List ℕ := fun _ r => if r = 0#32 then [7] else []

/-- The second flow of the port is allocated and freed. -/
def allocThenFree (token : U32) : List (FlowEvent ℕ) :=
  [.allocRx token 1#32 (flowAt 4#32),.freeRx token 0#32 4#32 (flowAt 4#32)]

/-- The second flow is released with no policer, and its entry is free
again, in either build. -/
theorem second_flow_released :
    (Along (serve false firstFlowPolicer 0) (Releasable firstFlowPolicer 0) ⟨oneClient,[]⟩
        (allocThenFree 2500#32) ∧
      Guarded (serve false firstFlowPolicer 0) (StepOk false firstFlowPolicer 0) ⟨oneClient,[]⟩
        (allocThenFree 2500#32)) ∧
    Along (serve true firstFlowPolicer 0) (Releasable firstFlowPolicer 0) ⟨macClient,[]⟩
        (allocThenFree 200#32) ∧
      Guarded (serve true firstFlowPolicer 0) (StepOk true firstFlowPolicer 0) ⟨macClient,[]⟩
        (allocThenFree 200#32) := by
  have hport : portOf oneClient 0 2500#32 = some 25#32 := by decide
  have hport2 : portOf macClient 0 200#32 = some macPort2 := by decide
  have hnone : oneClient.platform.rxFlows = [] := rfl
  have hnone2 : macClient.platform.rxFlows = [] := rfl
  refine ⟨(flows_in_step_iff false firstFlowPolicer 0 oneClient (allocThenFree 2500#32) ?_).mpr ?_,
    (flows_in_step_iff true firstFlowPolicer 0 macClient (allocThenFree 200#32) ?_).mpr ?_⟩
  · unfold allocThenFree
    rw [guarded_cons,guarded_cons]
    refine ⟨fun _ => ⟨by decide,?_⟩,trivial,trivial⟩
    rw [hnone]
    exact List.forall_mem_nil _
  · unfold allocThenFree
    rw [guarded_cons,guarded_cons]
    refine ⟨fun v hv _ _ => ?_,fun v hv _ => ?_,trivial⟩
    · obtain rfl : 25#32 = v := Option.some.inj (hport.symm.trans hv)
      exact ⟨⟨rfl,⟨twoFlows,rfl,by decide,by decide,by decide⟩,by decide⟩,fun h => nomatch h⟩
    · obtain rfl : 25#32 = v := by
        have hport' : portOf (serve false firstFlowPolicer 0 ⟨oneClient,[]⟩
          (.allocRx 2500#32 1#32 (flowAt 4#32))).world 0 2500#32 = some 25#32 := by decide
        exact Option.some.inj (hport'.symm.trans hv)
      exact ⟨by decide,rfl,rfl⟩
  · unfold allocThenFree
    rw [guarded_cons,guarded_cons]
    refine ⟨fun _ => ⟨by decide,?_⟩,trivial,trivial⟩
    rw [hnone2]
    exact List.forall_mem_nil _
  · unfold allocThenFree
    rw [guarded_cons,guarded_cons]
    refine ⟨fun v hv _ _ => ?_,fun v hv _ => ?_,trivial⟩
    · obtain rfl : macPort2 = v := Option.some.inj (hport2.symm.trans hv)
      exact ⟨⟨rfl,⟨macTwoFlows,rfl,by decide,by decide,by decide⟩,by decide⟩,
        fun _ => ⟨macPort2,hport2,Or.inl rfl⟩⟩
    · obtain rfl : macPort2 = v := by
        have hport' : portOf (serve true firstFlowPolicer 0 ⟨macClient,[]⟩
          (.allocRx 200#32 1#32 (flowAt 4#32))).world 0 200#32 = some macPort2 := by decide
        exact Option.some.inj (hport'.symm.trans hv)
      exact ⟨by decide,rfl,rfl⟩

/-- A FREE_RX of an offset that was never allocated deletes the policer of
the first flow, although the resource manager refuses it. In a build with
MAC-only ports the ALLOC_RX of a client of another port fails and keeps the
flow. -/
theorem unknown_offset_deletes_policer :
    ¬ (Along (serve false firstFlowPolicer 0) (Releasable firstFlowPolicer 0) ⟨oneClient,[]⟩
        [.freeRx 2500#32 0#32 9#32 { flowAt 4#32 with freeStatus := efail }] ∧
      Guarded (serve false firstFlowPolicer 0) (StepOk false firstFlowPolicer 0) ⟨oneClient,[]⟩
        [.freeRx 2500#32 0#32 9#32 { flowAt 4#32 with freeStatus := efail }]) ∧
    ¬ (Along (serve true firstFlowPolicer 0) (Releasable firstFlowPolicer 0) ⟨oneClient,[]⟩
        [.allocRx 2500#32 1#32 (flowAt 4#32)] ∧
      Guarded (serve true firstFlowPolicer 0) (StepOk true firstFlowPolicer 0) ⟨oneClient,[]⟩
        [.allocRx 2500#32 1#32 (flowAt 4#32)]) := by
  constructor
  · rintro ⟨-,hstep,-⟩
    have hfails := (hstep.2 25#32 (by decide)).2 (by simp)
    exact absurd hfails.2.calls (by decide)
  · rintro ⟨-,hstep,-⟩
    rcases hstep.2 with hok | ⟨-,hflows⟩
    · exact absurd hok (by decide)
    · exact absurd hflows (by decide)

end EthernetFirmware.ProxyServerRxFlows
