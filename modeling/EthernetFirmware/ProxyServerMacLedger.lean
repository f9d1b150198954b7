import EthernetFirmware.ProxyServerMacFlows

/-!
# Registrations of a client in builds with VEPA

Sequences of REGISTER_MAC and DEREGISTER_MAC on the primary flow, with the
addresses every client has registered and not deregistered. The server only
counts them, and the client's place in the VEPA object depends on that
count. The two agree as long as a registration that sets its classifier
goes through to the end, and a deregistration that removes one is of an
outstanding address and goes through as well.
-/

namespace EthernetFirmware.ProxyServerMacLedger

open Function BitMasks GuardedRuns RemoteConfig ProxyServerClients ProxyServerRequests
  ProxyServerMacFlows VepaClients VepaTable VepaMap

variable {procs : ℕ}

/-- Client object of a core. -/
abbrev ClientId (procs : ℕ) := Fin procs × Slot

/-- The server with the outstanding addresses of every client. -/
structure Ledger (procs : ℕ) where
  /-- The server. -/
  server : MacServer procs
  /-- Addresses registered and not yet deregistered, with repetitions. -/
  regs : ClientId procs → List MacAddr

/-- Parameters of a request. -/
structure MacRequest (procs : ℕ) where
  /-- Core the request comes from. -/
  core : Fin procs
  /-- Token of the client. -/
  token : U32
  /-- Address. -/
  macAddr : MacAddr
  /-- Flow index base. -/
  flowIdxBase : U32
  /-- Flow index offset. -/
  flowIdxOffset : U32
  /-- What the external calls return. -/
  x : MacOutcomes

/-- Requests. -/
inductive Event (procs : ℕ) where
  /-- `ETHREMOTECFG_CMD_REGISTER_MAC`. -/
  | register (r : MacRequest procs)
  /-- `ETHREMOTECFG_CMD_DEREGISTER_MAC`. -/
  | unregister (r : MacRequest procs)

/-- Parameters of an event. -/
def Event.req : Event procs → MacRequest procs
  | .register r => r
  | .unregister r => r

/-- Command of an event. -/
def Event.cmd : Event procs → MacCmd
  | .register r => .registerMac r.macAddr r.flowIdxBase r.flowIdxOffset
  | .unregister r => .unregisterMac r.macAddr r.flowIdxBase r.flowIdxOffset

/-- `CpswProxyServer_clientRequestHandler` for the requests about MAC
addresses. `EthRemoteCfg_VirtPort` names the port of every client. -/
def macRequestHandler (s : MacServer procs) (core : Fin procs) (token : U32) (x : MacOutcomes)
    (c : MacCmd) : Status × MacServer procs :=
  match getClient s.world core token with
  | none => (efail,s)
  | some i =>
    if h : isMacPort (s.world.client core i).virtPort = true ∨
        isSwitchPort (s.world.client core i).virtPort = true then
      macHandlerCb s core i ⟨(s.world.client core i).virtPort,h⟩ x c
    else (efail,s)

/-- The handler's answer to an event. -/
def call (s : MacServer procs) (e : Event procs) : Status × MacServer procs :=
  macRequestHandler s e.req.core e.req.token e.req.x e.cmd

/-- Outstanding addresses after an event that succeeds. -/
def recorded (s : Ledger procs) (e : Event procs) : ClientId procs → List MacAddr :=
  match getClient s.server.world e.req.core e.req.token with
  | none => s.regs
  | some i =>
    match e with
    | .register r => update s.regs (r.core,i) (r.macAddr :: s.regs (r.core,i))
    | .unregister r => update s.regs (r.core,i) ((s.regs (r.core,i)).erase r.macAddr)

/-- State after an event. -/
def step (s : Ledger procs) (e : Event procs) : Ledger procs :=
  let h := call s.server e
  ⟨h.2,if h.1 = sok then recorded s e else s.regs⟩

/-- The client object is an attached client on a switch port. -/
structure SwitchClient (w : World procs) (k : ClientId procs) (p : PortId) : Prop where
  /-- In use with a valid token. -/
  attached : (w.client k.1 k.2).attached = true
  /-- Its port. -/
  port : (w.client k.1 k.2).virtPort = p.val
  /-- The port is a switch port. -/
  onSwitch : onSwitch p

/-- Ports in the broadcast entry of the VEPA table. -/
def BcastPort (s : MacServer procs) (n : ℕ) : Prop :=
  ∃ v mask, s.vepa = some v ∧ getVirtPortMask v.table MacAddr.bcast 0#16 = some mask ∧
    isSet mask n = true

/-- The private VLAN of the port exists. -/
def HasVlan (s : MacServer procs) (p : PortId) : Prop :=
  s.clients.aleVlan (s.clients.privVlanCfg p) = true

/-- The port is registered in VEPA. -/
def InVepa (s : MacServer procs) (p : PortId) : Prop := BcastPort s p.val.toNat ∧ HasVlan s p

/-- The books of the server are right. -/
structure LedgerOk (s : Ledger procs) : Prop where
  /-- The count is the number of outstanding registrations. -/
  counted : ∀ k p, SwitchClient s.server.world k p →
    (s.server.world.client k.1 k.2).vlanRefCnt.toNat = (s.regs k).length
  /-- A client is registered in VEPA exactly while it has one. -/
  inVepa : ∀ k p, SwitchClient s.server.world k p → (InVepa s.server p ↔ s.regs k ≠ [])

/-- What a request must do: a failed registration leaves nothing behind, and
without an outstanding registration a deregistration is refused. -/
def StepOk (s : Ledger procs) : Event procs → Prop
  | .register r => (call s.server (.register r)).1 ≠ sok →
    (call s.server (.register r)).2.dstMac = s.server.dstMac ∧
      ∀ p, InVepa (call s.server (.register r)).2 p → InVepa s.server p
  | .unregister r => ∀ i, getClient s.server.world r.core r.token = some i →
    s.regs (r.core,i) = [] →
    (call s.server (.unregister r)).1 ≠ sok ∧ (call s.server (.unregister r)).2 = s.server

/-- The request is of an attached client of a switch port, on its primary
flow. -/
def Allowed (s : Ledger procs) (e : Event procs) : Prop :=
  ∃ i p, getClient s.server.world e.req.core e.req.token = some i ∧
    SwitchClient s.server.world (e.req.core,i) p ∧ Primary s.server p e.req.flowIdxOffset

/-- The request gets past the classifier. -/
structure Goes (r : MacRequest procs) : Prop where
  /-- The flow index base is the expected one. -/
  base : r.flowIdxBase = r.x.startFlowIdx
  /-- The classifier is set or removed. -/
  classifier : r.x.classifier = sok

/-- What a first registration needs: its private VLAN and the policer of it
are set, the broadcast entry takes the port, and no other client is on the
port. -/
structure FirstGoes (s : MacServer procs) (k : ClientId procs) (p : PortId) (x : RegisterOutcomes) :
    Prop where
  /-- The private VLAN is added. -/
  vlan : x.addVlan = sok
  /-- Its policer is set. -/
  policer : x.setVlanPolicer = sok
  /-- The table has a broadcast entry or room for one. -/
  room : ∀ v, s.vepa = some v → v.BcastKnown ∨ HasRoom v.table
  /-- Nobody else is on the port. -/
  alone : ∀ l, SwitchClient s.world l p → l = k

/-- What a last deregistration needs: the VEPA object lets the client go, and
its private VLAN is not that of another registered client. -/
structure LastGoes (s : Ledger procs) (k : ClientId procs) (p : PortId) (x : UnregisterOutcomes) :
    Prop where
  /-- The policer of the private VLAN is deleted. -/
  policer : x.delVlanPolicer = sok
  /-- Another port stays in the broadcast entry, or its policer is deleted. -/
  bcast : (∃ n, n ≠ p.val.toNat ∧ BcastPort s.server n) ∨ x.delBcastPolicer = sok
  /-- Nobody else needs the private VLAN. -/
  alone : ∀ l q, SwitchClient s.server.world l q → l ≠ k → s.regs l ≠ [] →
    s.server.clients.privVlanCfg q ≠ s.server.clients.privVlanCfg p

/-- The condition on a request that gets past the classifier. -/
def Regular (s : Ledger procs) : Event procs → Prop
  | .register r => ∀ i p, getClient s.server.world r.core r.token = some i →
    SwitchClient s.server.world (r.core,i) p → Goes r →
    (s.server.world.client r.core i).vlanRefCnt ≠ 0xFFFFFFFF#32 ∧
      ((s.server.world.client r.core i).vlanRefCnt = 0#32 →
        FirstGoes s.server (r.core,i) p r.x.register)
  | .unregister r => ∀ i p, getClient s.server.world r.core r.token = some i →
    SwitchClient s.server.world (r.core,i) p → Goes r →
    r.macAddr ∈ s.regs (r.core,i) ∧
      ((s.server.world.client r.core i).vlanRefCnt = 1#32 →
        LastGoes s (r.core,i) p r.x.unregister)

/-- A ready server on which no client has registered. -/
structure Fresh (s : Ledger procs) : Prop where
  /-- The server is ready. -/
  ready : getHandle s.server.world.server = sok
  /-- The VEPA table holds a map without the broadcast entry. -/
  vepa : ∃ v m, s.server.vepa = some v ∧ Represents v.table m ∧ bcastKey ∉ m
  /-- Counts are zero. -/
  counts : ∀ k p, SwitchClient s.server.world k p →
    (s.server.world.client k.1 k.2).vlanRefCnt = 0#32
  /-- Nothing is outstanding. -/
  regs : ∀ k, s.regs k = []

section Calls

variable {s : MacServer procs} {core : Fin procs} {i : Slot} {p : PortId} {offset : U32}
  {a : MacAddr} {x : MacOutcomes} {v : Vepa} {r : MacRequest procs}

/-- A registration of a client that has one already. -/
theorem registerSwitch_again (hx : x.classifier = sok) (hv : s.vepa = some v)
    (hc : (s.world.client core i).vlanRefCnt ≠ 0#32) :
    registerSwitch s core i p x a offset =
      (sok,{ s with dstMac := s.dstMac ++ [(core,offset,a)] }.count core i (· + 1#32)) := by
  unfold registerSwitch
  rw [if_pos hx,hv]
  exact if_neg hc

/-- The first registration of a client. -/
theorem registerSwitch_first (hx : x.classifier = sok) (hv : s.vepa = some v)
    (hc : (s.world.client core i).vlanRefCnt = 0#32) :
    registerSwitch s core i p x a offset =
      if (registerClient v offset p a x.register).status = sok then
        (sok,({ s with dstMac := s.dstMac ++ [(core,offset,a)] }.withVepa
          (registerClient v offset p a x.register).vepa).count core i (· + 1#32))
      else ((registerClient v offset p a x.register).status,
        { s with dstMac := s.dstMac ++ [(core,offset,a)] }.withVepa
          (registerClient v offset p a x.register).vepa) := by
  unfold registerSwitch
  rw [if_pos hx,hv]
  exact if_pos hc

/-- A deregistration that leaves the count positive, or wraps it. -/
theorem unregisterSwitch_many (hx : x.classifier = sok) (hv : s.vepa = some v)
    (hc : (s.world.client core i).vlanRefCnt ≠ 1#32) :
    unregisterSwitch s core i p x a offset =
      (sok,{ s with dstMac := s.dstMac.erase (core,offset,a) }.count core i (· - 1#32)) := by
  unfold unregisterSwitch
  rw [if_pos hx,hv]
  refine if_neg ?_
  rw [client_count]
  exact fun hz => hc (by bv_omega)

/-- The last deregistration of a client. -/
theorem unregisterSwitch_last (hx : x.classifier = sok) (hv : s.vepa = some v)
    (hc : (s.world.client core i).vlanRefCnt = 1#32) :
    unregisterSwitch s core i p x a offset = ((unregisterClient v p x.unregister).status,
      ({ s with dstMac := s.dstMac.erase (core,offset,a) }.count core i (· - 1#32)).withVepa
        (unregisterClient v p x.unregister).vepa) := by
  unfold unregisterSwitch
  rw [if_pos hx,hv]
  refine if_pos ?_
  rw [client_count]
  change (s.world.client core i).vlanRefCnt - 1#32 = 0#32
  rw [hc]
  rfl

/-- The handler of a switch client's request is called with its port. -/
theorem macRequestHandler_eq {token : U32} {c : MacCmd}
    (hget : getClient s.world core token = some i) (hp : SwitchClient s.world (core,i) p) :
    macRequestHandler s core token x c = macHandlerCb s core i p x c := by
  have hport : isMacPort (s.world.client core i).virtPort = true ∨
      isSwitchPort (s.world.client core i).virtPort = true := by
    rw [hp.port]
    exact p.property
  have heq : (⟨(s.world.client core i).virtPort,hport⟩ : PortId) = p := Subtype.ext hp.port
  unfold macRequestHandler
  rw [hget]
  dsimp only
  rw [dif_pos hport,heq]

/-- A request on the primary flow that does not get past the classifier is
refused without effect. -/
theorem call_refused {e : Event procs} (hget : getClient s.world e.req.core e.req.token = some i)
    (hp : SwitchClient s.world (e.req.core,i) p) (h : ¬ Goes e.req) :
    (call s e).1 ≠ sok ∧ (call s e).2 = s := by
  have hcall : call s e = macHandlerCb s e.req.core i p e.req.x e.cmd :=
    macRequestHandler_eq hget hp
  rw [hcall]
  cases e with
  | register r =>
    by_cases hst : primaryStatus s r.core i r.x r.flowIdxOffset = sok
    · unfold macHandlerCb registerMacHandlerCb Event.req Event.cmd
      dsimp only
      rw [if_pos hst,if_pos hp.onSwitch]
      by_cases hb : validateStartIdx r.x.toOutcomes r.flowIdxBase = sok
      · have hx : r.x.classifier ≠ sok := fun hx =>
          h ⟨(ProxyServerRxFlows.validateStartIdx_ok_iff _).mp hb,hx⟩
        rw [if_pos hb]
        unfold registerSwitch
        rw [if_neg hx]
        exact ⟨hx,rfl⟩
      · rw [if_neg hb]
        exact ⟨hb,rfl⟩
    · exact macHandlerCb_refused _ hst
  | unregister r =>
    by_cases hst : primaryStatus s r.core i r.x r.flowIdxOffset = sok
    · unfold macHandlerCb unregisterMacHandlerCb Event.req Event.cmd
      dsimp only
      rw [if_pos hst,if_pos hp.onSwitch]
      by_cases hb : validateStartIdx r.x.toOutcomes r.flowIdxBase = sok
      · have hx : r.x.classifier ≠ sok := fun hx =>
          h ⟨(ProxyServerRxFlows.validateStartIdx_ok_iff _).mp hb,hx⟩
        rw [if_pos hb]
        unfold unregisterSwitch
        rw [if_neg hx]
        exact ⟨hx,rfl⟩
      · rw [if_neg hb]
        exact ⟨hb,rfl⟩
    · exact macHandlerCb_refused _ hst

/-- A registration on the primary flow that gets past the classifier. -/
theorem call_register (hget : getClient s.world r.core r.token = some i)
    (hp : SwitchClient s.world (r.core,i) p) (hready : getHandle s.world.server = sok)
    (hprim : Primary s p r.flowIdxOffset) (h : Goes r) :
    call s (.register r) = registerSwitch s r.core i p r.x r.macAddr r.flowIdxOffset := by
  have hcall : call s (.register r) = _ := macRequestHandler_eq hget hp
  rw [hcall]
  unfold macHandlerCb registerMacHandlerCb Event.req Event.cmd
  dsimp only
  rw [if_pos (primaryStatus_primary hp.port hready hprim),if_pos hp.onSwitch]
  exact if_pos (if_pos h.base)

/-- A deregistration on the primary flow that gets past the classifier. -/
theorem call_unregister (hget : getClient s.world r.core r.token = some i)
    (hp : SwitchClient s.world (r.core,i) p) (hready : getHandle s.world.server = sok)
    (hprim : Primary s p r.flowIdxOffset) (h : Goes r) :
    call s (.unregister r) = unregisterSwitch s r.core i p r.x r.macAddr r.flowIdxOffset := by
  have hcall : call s (.unregister r) = _ := macRequestHandler_eq hget hp
  rw [hcall]
  unfold macHandlerCb unregisterMacHandlerCb Event.req Event.cmd
  dsimp only
  rw [if_pos (primaryStatus_primary hp.port hready hprim),if_pos hp.onSwitch]
  exact if_pos (if_pos h.base)

end Calls

section Books

variable {s : Ledger procs} {t : MacServer procs} {k l : ClientId procs} {p q : PortId} {v : Vepa}
  {m : PortMap} {n : ℕ} {as : List MacAddr} {f : U32 → U32} {r : MacRequest procs} {i : Slot}

/-- What requests that meet the condition keep. -/
structure LedgerInv (s : Ledger procs) : Prop where
  /-- The server is ready. -/
  ready : getHandle s.server.world.server = sok
  /-- The VEPA table holds a map. -/
  vepa : ∃ v m, s.server.vepa = some v ∧ Represents v.table m
  /-- The count is the number of outstanding registrations. -/
  counted : ∀ k p, SwitchClient s.server.world k p →
    (s.server.world.client k.1 k.2).vlanRefCnt.toNat = (s.regs k).length
  /-- A client's port is in the broadcast entry exactly while it has one. -/
  ports : ∀ k p, SwitchClient s.server.world k p →
    (BcastPort s.server p.val.toNat ↔ s.regs k ≠ [])
  /-- And then its private VLAN exists. -/
  vlans : ∀ k p, SwitchClient s.server.world k p → s.regs k ≠ [] → HasVlan s.server p

theorem LedgerInv.ok (h : LedgerInv s) : LedgerOk s where
  counted := h.counted
  inVepa := fun k p hp =>
    ⟨fun hv => (h.ports k p hp).mp hv.1,fun hr => ⟨(h.ports k p hp).mpr hr,h.vlans k p hp hr⟩⟩

theorem clients_of_vepa (hv : t.vepa = some v) : v.clients = t.clients := by
  obtain ⟨o,-,rfl⟩ := Option.map_eq_some_iff.mp hv
  rfl

theorem bcastPort_iff (hv : t.vepa = some v) (hrep : Represents v.table m) :
    BcastPort t n ↔ n ∈ portsAt m bcastKey := by
  constructor
  · rintro ⟨v',mask,hv',hmask,hn⟩
    obtain rfl : v' = v := Option.some.inj (hv'.symm.trans hv)
    rw [← hrep.members_of_getMask hmask,mem_members]
    exact hn
  · intro hn
    obtain ⟨j,hj⟩ := Option.isSome_iff_exists.mp
      (hrep.known_iff_nonempty.mpr ⟨n,hn⟩ : Known v.table MacAddr.bcast 0#16)
    have hmask : getVirtPortMask v.table MacAddr.bcast 0#16 = some (v.table j).virtPortMask := by
      rw [getVirtPortMask,hj]
      rfl
    refine ⟨v,_,hv,hmask,?_⟩
    rw [← mem_members,hrep.members_of_getMask hmask]
    exact hn

theorem Fresh.inv (h : Fresh s) : LedgerInv s := by
  obtain ⟨v,m,hv,hrep,hno⟩ := h.vepa
  refine ⟨h.ready,⟨v,m,hv,hrep⟩,fun k p hp => ?_,fun k p hp => ?_,fun k p hp hr => ?_⟩
  · rw [h.counts k p hp,h.regs k]
    rfl
  · rw [bcastPort_iff hv hrep,portsAt,Finmap.lookup_eq_none.mpr hno,h.regs k]
    exact iff_of_false (Finset.notMem_empty _) (fun hne => hne rfl)
  · exact absurd (h.regs k) hr

/-- Clients are the same when a count changes. -/
theorem switchClient_count (k : ClientId procs) :
    SwitchClient (t.count k.1 k.2 f).world l q ↔ SwitchClient t.world l q := by
  have hsame : ((t.count k.1 k.2 f).world.client l.1 l.2).attached =
      (t.world.client l.1 l.2).attached ∧
      ((t.count k.1 k.2 f).world.client l.1 l.2).virtPort = (t.world.client l.1 l.2).virtPort := by
    unfold MacServer.count
    rw [client_modifyClient]
    split
    · rename_i hl
      rw [hl.1,hl.2]
      exact ⟨rfl,rfl⟩
    · exact ⟨rfl,rfl⟩
  constructor
  · rintro ⟨ha,hp,ho⟩
    exact ⟨hsame.1 ▸ ha,hsame.2 ▸ hp,ho⟩
  · rintro ⟨ha,hp,ho⟩
    exact ⟨hsame.1.trans ha,hsame.2.trans hp,ho⟩

theorem vlanRefCnt_count_of_ne (h : l ≠ k) :
    ((t.count k.1 k.2 f).world.client l.1 l.2).vlanRefCnt =
      (t.world.client l.1 l.2).vlanRefCnt := by
  unfold MacServer.count
  rw [client_modifyClient,if_neg]
  exact fun hl => h (Prod.ext hl.1 hl.2)

/-- The ports of a client are one port. -/
theorem SwitchClient.port_unique {w : World procs} (hp : SwitchClient w k p)
    (hq : SwitchClient w k q) : q = p := Subtype.ext (hq.port.symm.trans hp.port)

/-- The invariant after one client's count and list have changed. -/
theorem LedgerInv.update (h : LedgerInv s) (hp : SwitchClient s.server.world k p)
    (hw : t.world = (s.server.count k.1 k.2 f).world)
    (hv : ∃ v m, t.vepa = some v ∧ Represents v.table m)
    (hcount : (f (s.server.world.client k.1 k.2).vlanRefCnt).toNat = as.length)
    (hport : BcastPort t p.val.toNat ↔ as ≠ [])
    (hports : ∀ l q, SwitchClient s.server.world l q → l ≠ k →
      (BcastPort t q.val.toNat ↔ s.regs l ≠ []))
    (hvlan : as ≠ [] → HasVlan t p)
    (hvlans : ∀ l q, SwitchClient s.server.world l q → l ≠ k → s.regs l ≠ [] → HasVlan t q) :
    LedgerInv ⟨t,Function.update s.regs k as⟩ := by
  have hclient : ∀ {l q}, SwitchClient t.world l q → SwitchClient s.server.world l q := by
    intro l q hl
    rw [hw] at hl
    exact (switchClient_count k).mp hl
  refine ⟨?_,hv,fun l q hl => ?_,fun l q hl => ?_,fun l q hl hr => ?_⟩
  · change getHandle t.world.server = sok
    rw [hw]
    exact h.ready
  · change (t.world.client l.1 l.2).vlanRefCnt.toNat = (Function.update s.regs k as l).length
    rw [hw]
    by_cases hlk : l = k
    · subst hlk
      rw [client_count,update_self]
      exact hcount
    · rw [vlanRefCnt_count_of_ne hlk,update_of_ne hlk]
      exact h.counted l q (hclient hl)
  · change BcastPort t q.val.toNat ↔ Function.update s.regs k as l ≠ []
    by_cases hlk : l = k
    · subst hlk
      obtain rfl := hp.port_unique (hclient hl)
      rw [update_self]
      exact hport
    · rw [update_of_ne hlk]
      exact hports l q (hclient hl) hlk
  · change Function.update s.regs k as l ≠ [] at hr
    by_cases hlk : l = k
    · subst hlk
      obtain rfl := hp.port_unique (hclient hl)
      rw [update_self] at hr
      exact hvlan hr
    · rw [update_of_ne hlk] at hr
      exact hvlans l q (hclient hl) hlk hr

/-- Right books after one client's count and list have changed. -/
theorem LedgerOk.counted_after (h : LedgerOk ⟨t,Function.update s.regs k as⟩)
    (hp : SwitchClient s.server.world k p) (hw : t.world = (s.server.count k.1 k.2 f).world) :
    (f (s.server.world.client k.1 k.2).vlanRefCnt).toNat = as.length := by
  have hk : SwitchClient t.world k p := by
    rw [hw]
    exact (switchClient_count k).mpr hp
  have hcounted := h.counted k p hk
  change (t.world.client k.1 k.2).vlanRefCnt.toNat =
    (Function.update s.regs k as k).length at hcounted
  rwa [hw,client_count,update_self] at hcounted

theorem LedgerOk.inVepa_after (h : LedgerOk ⟨t,Function.update s.regs k as⟩)
    (hl : SwitchClient s.server.world l q) (hw : t.world = (s.server.count k.1 k.2 f).world) :
    InVepa t q ↔ Function.update s.regs k as l ≠ [] := by
  refine h.inVepa l q ?_
  change SwitchClient t.world l q
  rw [hw]
  exact (switchClient_count k).mpr hl

/-- A successful registration records its address. -/
theorem step_register (hget : getClient s.server.world r.core r.token = some i)
    (hcall : call s.server (.register r) = (sok,t)) : step s (.register r) =
      ⟨t,Function.update s.regs (r.core,i) (r.macAddr :: s.regs (r.core,i))⟩ := by
  have hrec : recorded s (.register r) =
      Function.update s.regs (r.core,i) (r.macAddr :: s.regs (r.core,i)) := by
    unfold recorded
    change (match getClient s.server.world r.core r.token with | none => _ | some i => _) = _
    rw [hget]
  unfold step
  dsimp only
  rw [hcall,hrec]
  exact congrArg (Ledger.mk t) (if_pos rfl)

/-- A successful deregistration strikes its address off. -/
theorem step_unregister (hget : getClient s.server.world r.core r.token = some i)
    (hcall : call s.server (.unregister r) = (sok,t)) : step s (.unregister r) =
      ⟨t,Function.update s.regs (r.core,i) ((s.regs (r.core,i)).erase r.macAddr)⟩ := by
  have hrec : recorded s (.unregister r) =
      Function.update s.regs (r.core,i) ((s.regs (r.core,i)).erase r.macAddr) := by
    unfold recorded
    change (match getClient s.server.world r.core r.token with | none => _ | some i => _) = _
    rw [hget]
  unfold step
  dsimp only
  rw [hcall,hrec]
  exact congrArg (Ledger.mk t) (if_pos rfl)

/-- A request that fails records nothing. -/
theorem step_failed {e : Event procs} {st : Status} (hst : st ≠ sok)
    (hcall : call s.server e = (st,t)) : step s e = ⟨t,s.regs⟩ := by
  unfold step
  dsimp only
  rw [hcall]
  exact congrArg (Ledger.mk t) (if_neg hst)

/-- Another registration of a client keeps the books exactly when the count
does not wrap around. -/
theorem register_again (hI : LedgerInv s) (hget : getClient s.server.world r.core r.token = some i)
    (hp : SwitchClient s.server.world (r.core,i) p) (hprim : Primary s.server p r.flowIdxOffset)
    (hgo : Goes r) (hc : (s.server.world.client r.core i).vlanRefCnt ≠ 0#32) :
    (LedgerOk (step s (.register r)) ∧ StepOk s (.register r) ↔
        (s.server.world.client r.core i).vlanRefCnt ≠ 0xFFFFFFFF#32) ∧
      ((s.server.world.client r.core i).vlanRefCnt ≠ 0xFFFFFFFF#32 →
        LedgerInv (step s (.register r))) := by
  obtain ⟨v,m,hv,hrep⟩ := hI.vepa
  have hcall := (call_register hget hp hI.ready hprim hgo).trans
    (registerSwitch_again hgo.classifier hv hc)
  have hlen := hI.counted _ p hp
  have hsome : s.regs (r.core,i) ≠ [] := by
    intro hnil
    rw [hnil] at hlen
    exact hc (BitVec.eq_of_toNat_eq hlen)
  have hright : StepOk s (.register r) := by
    intro hne
    rw [hcall] at hne
    exact absurd rfl hne
  have hkeep : (s.server.world.client r.core i).vlanRefCnt ≠ 0xFFFFFFFF#32 →
      LedgerInv (step s (.register r)) := by
    intro hmax
    rw [step_register hget hcall]
    refine hI.update (f := (· + 1#32)) hp rfl ⟨v,m,hv,hrep⟩ ?_ ?_ (fun l q hl _ => hI.ports l q hl)
      (fun _ => hI.vlans _ p hp hsome) (fun l q hl _ => hI.vlans l q hl)
    · rw [List.length_cons,← hlen]
      exact toNat_succ_iff.mpr hmax
    · exact iff_of_true ((hI.ports _ p hp).mpr hsome) (List.cons_ne_nil _ _)
  refine ⟨⟨fun h => ?_,fun hmax => ⟨(hkeep hmax).ok,hright⟩⟩,hkeep⟩
  rw [step_register hget hcall] at h
  have hcounted := h.1.counted_after (f := (· + 1#32)) hp rfl
  rw [List.length_cons,← hlen] at hcounted
  exact toNat_succ_iff.mp hcounted

/-- A registration with the VEPA object adds the private VLAN of the port and no other. -/
theorem hasVlan_of_registered {t' : MacServer procs} {o : RegisterOutcomes} {offset : U32}
    {a : MacAddr} (hv : t.vepa = some v) (hadd : o.addVlan = sok) (hset : o.setVlanPolicer = sok)
    (ht : t'.clients = (registerClient v offset p a o).vepa.clients) (q : PortId) :
    HasVlan t' q ↔
      t.clients.privVlanCfg q = t.clients.privVlanCfg p ∨ HasVlan t q := by
  unfold HasVlan
  rw [ht,(registerClient_goes v offset p a hadd hset).2.2.1,clients_of_vepa hv]
  change Function.update t.clients.aleVlan (t.clients.privVlanCfg p) true
    (t.clients.privVlanCfg q) = true ↔ _
  by_cases hpq : t.clients.privVlanCfg q = t.clients.privVlanCfg p
  · rw [hpq,update_self]
    simp
  · rw [update_of_ne hpq]
    simp [hpq]

/-- After a first registration that went through to the end the invariant holds. -/
theorem LedgerInv.first {x : RegisterOutcomes} {v' : Vepa} {a : MacAddr} (hI : LedgerInv s)
    (hp : SwitchClient s.server.world k p) (h : FirstGoes s.server k p x)
    (hc : (s.server.world.client k.1 k.2).vlanRefCnt = 0#32) (hv : s.server.vepa = some v)
    (hrep : Represents v.table m) (hw : t.world = (s.server.count k.1 k.2 (· + 1#32)).world)
    (hvt : t.vepa = some v') (htab : v'.table = (addAddr v.table MacAddr.bcast 0#16 p).2)
    (hvlan : ∀ q, HasVlan t q ↔
      s.server.clients.privVlanCfg q = s.server.clients.privVlanCfg p ∨ HasVlan s.server q) :
    LedgerInv ⟨t,Function.update s.regs k [a]⟩ := by
  have hrep' : Represents v'.table
      (m.insert bcastKey (insert p.val.toNat (portsAt m bcastKey))) := by
    rw [htab]
    exact hrep.addAddr ((or_congr hrep.known_iff hrep.room_iff).mp (h.room v hv))
  have hports : ∀ n, BcastPort t n ↔ n = p.val.toNat ∨ BcastPort s.server n := by
    intro n
    rw [bcastPort_iff hvt hrep',bcastPort_iff hv hrep,portsAt_insert,Finset.mem_insert]
  refine hI.update hp hw ⟨_,_,hvt,hrep'⟩ ?_ ?_ (fun l q hl hlk => ?_)
    (fun _ => (hvlan p).mpr (Or.inl rfl))
    (fun l q hl _ hr => (hvlan q).mpr (Or.inr (hI.vlans l q hl hr)))
  · rw [hc]
    rfl
  · exact iff_of_true ((hports _).mpr (Or.inl rfl)) (List.cons_ne_nil _ _)
  · have hne : q.val.toNat ≠ p.val.toNat := by
      intro hqp
      obtain rfl : q = p := Subtype.ext (BitVec.eq_of_toNat_eq hqp)
      exact hlk (h.alone l hl)
    rw [hports,hI.ports l q hl |>.symm]
    exact or_iff_right hne

/-- Books that are right after a first registration: the table took the port, and nobody else
is on it. -/
theorem LedgerInv.first_needs {v' : Vepa} {a : MacAddr} (hI : LedgerInv s)
    (hp : SwitchClient s.server.world k p) (hnil : s.regs k = [])
    (h : LedgerOk ⟨t,Function.update s.regs k [a]⟩)
    (hw : t.world = (s.server.count k.1 k.2 (· + 1#32)).world) (hvt : t.vepa = some v')
    (htab : v'.table = (addAddr v.table MacAddr.bcast 0#16 p).2) :
    (v.BcastKnown ∨ HasRoom v.table) ∧ ∀ l, SwitchClient s.server.world l p → l = k := by
  have hin : InVepa t p := (h.inVepa_after hp hw).mpr (by rw [update_self]; simp)
  refine ⟨?_,fun l hl => ?_⟩
  · obtain ⟨v1,mask,hv1,hmask,-⟩ := hin.1
    obtain rfl : v1 = v' := Option.some.inj (hv1.symm.trans hvt)
    rw [htab] at hmask
    refine known_addAddr_iff.mp (?_ : Known (addAddr v.table MacAddr.bcast 0#16 p).2 _ _)
    unfold Known
    unfold getVirtPortMask at hmask
    obtain ⟨j,hj,-⟩ := Option.map_eq_some_iff.mp hmask
    rw [hj]
    rfl
  · -- Another client on the port would be in VEPA without a registration.
    by_contra hlk
    have hl' : s.regs l ≠ [] := by
      have hrec := (h.inVepa_after hl hw).mp hin
      rwa [update_of_ne hlk] at hrec
    exact (hI.ports _ p hp).mp ((hI.ports l p hl).mpr hl') hnil

/-- The first registration of a client keeps the books exactly when it goes
through to the end. -/
theorem register_first (hI : LedgerInv s) (hget : getClient s.server.world r.core r.token = some i)
    (hp : SwitchClient s.server.world (r.core,i) p) (hprim : Primary s.server p r.flowIdxOffset)
    (hgo : Goes r) (hc : (s.server.world.client r.core i).vlanRefCnt = 0#32) :
    (LedgerOk (step s (.register r)) ∧ StepOk s (.register r) ↔
        FirstGoes s.server (r.core,i) p r.x.register) ∧
      (FirstGoes s.server (r.core,i) p r.x.register → LedgerInv (step s (.register r))) := by
  obtain ⟨v,m,hv,hrep⟩ := hI.vepa
  have hcall := (call_register hget hp hI.ready hprim hgo).trans
    (registerSwitch_first hgo.classifier hv hc)
  have hnil : s.regs (r.core,i) = [] := by
    have hlen := hI.counted _ p hp
    rw [hc] at hlen
    exact List.eq_nil_of_length_eq_zero hlen.symm
  by_cases hioctl : r.x.register.addVlan = sok ∧ r.x.register.setVlanPolicer = sok
  · obtain ⟨hst,hobj,-,-⟩ :=
      registerClient_goes v r.flowIdxOffset p r.macAddr hioctl.1 hioctl.2
    rw [if_pos hst] at hcall
    have htab : (registerClient v r.flowIdxOffset p r.macAddr r.x.register).vepa.table =
        (addAddr v.table MacAddr.bcast 0#16 p).2 := congrArg VepaObj.remoteCoreVepaTable hobj
    have hright : StepOk s (.register r) := by
      intro hne
      rw [hcall] at hne
      exact absurd rfl hne
    rw [step_register hget hcall,hnil]
    generalize ht : (({ s.server with
      dstMac := s.server.dstMac ++ [(r.core,r.flowIdxOffset,r.macAddr)] }.withVepa
        (registerClient v r.flowIdxOffset p r.macAddr r.x.register).vepa).count r.core i
          (· + 1#32)) = t
    have hw : t.world = (s.server.count r.core i (· + 1#32)).world := by rw [← ht]; rfl
    have hvt : t.vepa = some (registerClient v r.flowIdxOffset p r.macAddr r.x.register).vepa := by
      rw [← ht]; rfl
    have hcl : t.clients =
        (registerClient v r.flowIdxOffset p r.macAddr r.x.register).vepa.clients := by
      rw [← ht]; rfl
    have hkeep : FirstGoes s.server (r.core,i) p r.x.register →
        LedgerInv ⟨t,Function.update s.regs (r.core,i) [r.macAddr]⟩ := fun h =>
      hI.first hp h hc hv hrep hw hvt htab (hasVlan_of_registered hv hioctl.1 hioctl.2 hcl)
    refine ⟨⟨fun h => ?_,fun h => ⟨(hkeep h).ok,hright⟩⟩,hkeep⟩
    obtain ⟨hroom,halone⟩ := hI.first_needs hp hnil h.1 hw hvt htab
    refine ⟨hioctl.1,hioctl.2,fun v' hv' => ?_,halone⟩
    obtain rfl : v' = v := Option.some.inj (hv'.symm.trans hv)
    exact hroom
  · have hst : (registerClient v r.flowIdxOffset p r.macAddr r.x.register).status ≠ sok :=
      (registerClient_refused hioctl).1
    rw [if_neg hst] at hcall
    have hno : ¬ FirstGoes s.server (r.core,i) p r.x.register :=
      fun h => hioctl ⟨h.vlan,h.policer⟩
    refine ⟨iff_of_false (fun h => ?_) hno,fun h => absurd h hno⟩
    obtain ⟨hmac,-⟩ := h.2 (by rw [hcall]; exact hst)
    rw [hcall] at hmac
    exact absurd hmac (by simp [MacServer.withVepa])

/-- A deregistration of a client with registrations is not one too many. -/
theorem stepOk_unregister (hget : getClient s.server.world r.core r.token = some i)
    (hsome : s.regs (r.core,i) ≠ []) : StepOk s (.unregister r) := by
  intro j hj hnil
  obtain rfl : i = j := Option.some.inj (hget.symm.trans hj)
  exact absurd hnil hsome

/-- A deregistration that is not the last one keeps the books exactly when
its address is outstanding. -/
theorem unregister_many (hI : LedgerInv s)
    (hget : getClient s.server.world r.core r.token = some i)
    (hp : SwitchClient s.server.world (r.core,i) p) (hprim : Primary s.server p r.flowIdxOffset)
    (hgo : Goes r) (hc : (s.server.world.client r.core i).vlanRefCnt ≠ 1#32) :
    (LedgerOk (step s (.unregister r)) ∧ StepOk s (.unregister r) ↔
        r.macAddr ∈ s.regs (r.core,i)) ∧
      (r.macAddr ∈ s.regs (r.core,i) → LedgerInv (step s (.unregister r))) := by
  obtain ⟨v,m,hv,hrep⟩ := hI.vepa
  have hcall := (call_unregister hget hp hI.ready hprim hgo).trans
    (unregisterSwitch_many hgo.classifier hv hc)
  have hlen := hI.counted _ p hp
  have hkeep : r.macAddr ∈ s.regs (r.core,i) → LedgerInv (step s (.unregister r)) := by
    intro hmem
    rw [step_unregister hget hcall]
    have hpos : 0 < (s.regs (r.core,i)).length := List.length_pos_of_mem hmem
    have hlen' := List.length_erase_of_mem hmem
    -- The count is at least two.
    have htwo : (s.regs (r.core,i)).length ≠ 1 := by
      intro hone
      exact hc (BitVec.eq_of_toNat_eq (hlen.trans hone))
    have hsome : (s.regs (r.core,i)).erase r.macAddr ≠ [] := by
      intro hnil
      rw [hnil,List.length_nil] at hlen'
      omega
    have hold : s.regs (r.core,i) ≠ [] := List.ne_nil_of_mem hmem
    refine hI.update (f := (· - 1#32)) hp rfl ⟨v,m,hv,hrep⟩ ?_
      (iff_of_true ((hI.ports _ p hp).mpr hold) hsome) (fun l q hl _ => hI.ports l q hl)
      (fun _ => hI.vlans _ p hp hold) (fun l q hl _ => hI.vlans l q hl)
    have hz : (s.server.world.client r.core i).vlanRefCnt ≠ 0#32 := by
      intro hz
      rw [hz] at hlen
      change 0 = _ at hlen
      omega
    rw [hlen',← hlen]
    exact toNat_pred hz
  have hright : r.macAddr ∈ s.regs (r.core,i) → StepOk s (.unregister r) := fun hmem =>
    stepOk_unregister hget (List.ne_nil_of_mem hmem)
  refine ⟨⟨fun h => ?_,fun hmem => ⟨(hkeep hmem).ok,hright hmem⟩⟩,hkeep⟩
  by_contra hmem
  rw [step_unregister hget hcall] at h
  have hcounted := h.1.counted_after (f := (· - 1#32)) hp rfl
  rw [List.erase_of_not_mem hmem,← hlen] at hcounted
  dsimp only at hcounted
  bv_omega

/-- What is left of the broadcast entry when a port of it is deleted. -/
theorem delAddr_bcast (hrep : Represents v.table m) (hmem : p.val.toNat ∈ portsAt m bcastKey) :
    (delAddr v.table MacAddr.bcast 0#16 p).1 = sok ∧
      Represents (delAddr v.table MacAddr.bcast 0#16 p).2 (dropPort m bcastKey p.val.toNat) ∧
      (Known (delAddr v.table MacAddr.bcast 0#16 p).2 MacAddr.bcast 0#16 ↔
        ∃ n, n ≠ p.val.toNat ∧ n ∈ portsAt m bcastKey) := by
  obtain ⟨hok,hrep'⟩ := hrep.delAddr hmem
  refine ⟨hok,hrep',?_⟩
  rw [hrep'.known_iff_nonempty,portsAt_dropPort]
  exact exists_congr fun n => Finset.mem_erase

/-- A deregistration with the VEPA object takes the private VLAN of the port away. -/
theorem hasVlan_of_unregistered {t' : MacServer procs} {o : UnregisterOutcomes}
    (hv : t.vepa = some v) (hdel : o.delVlanPolicer = sok)
    (ht : t'.clients = (unregisterClient v p o).vepa.clients) (q : PortId) :
    HasVlan t' q ↔
      t.clients.privVlanCfg q ≠ t.clients.privVlanCfg p ∧ HasVlan t q := by
  obtain ⟨-,hpriv,hale,-⟩ := unregisterClient_goes v p hdel
  unfold HasVlan
  rw [ht,hpriv,hale,clients_of_vepa hv]
  by_cases hpq : t.clients.privVlanCfg q = t.clients.privVlanCfg p
  · rw [hpq,update_self]
    simp
  · rw [update_of_ne hpq]
    simp [hpq]

/-- The VEPA object lets a client go exactly when the policer of its private VLAN is deleted
and, when it is the last in the broadcast entry, that one's as well. -/
theorem unregisterClient_ok_iff {o : UnregisterOutcomes} (hv : t.vepa = some v)
    (hrep : Represents v.table m) (hmem : p.val.toNat ∈ portsAt m bcastKey) :
    (unregisterClient v p o).status = sok ↔ o.delVlanPolicer = sok ∧
      ((∃ n, n ≠ p.val.toNat ∧ BcastPort t n) ∨ o.delBcastPolicer = sok) := by
  obtain ⟨hdel,-,hknown⟩ := delAddr_bcast hrep hmem
  by_cases hpol : o.delVlanPolicer = sok
  · rw [(unregisterClient_goes v p hpol).2.2.2,and_iff_right hpol]
    have hothers : (∃ n, n ≠ p.val.toNat ∧ BcastPort t n) ↔
        ∃ n, n ≠ p.val.toNat ∧ n ∈ portsAt m bcastKey :=
      exists_congr fun n => and_congr_right' (bcastPort_iff hv hrep)
    rw [hothers,← hknown]
    split
    · exact iff_of_true hdel (Or.inl ‹_›)
    · exact (or_iff_right ‹_›).symm
  · rw [unregisterClient_refused hpol]
    exact iff_of_false hpol fun h => hpol h.1

/-- After a last deregistration that went through to the end the invariant holds. -/
theorem LedgerInv.last {y : UnregisterOutcomes} {v' : Vepa} (hI : LedgerInv s)
    (hp : SwitchClient s.server.world k p) (h : LastGoes s k p y)
    (hc : (s.server.world.client k.1 k.2).vlanRefCnt = 1#32) (hv : s.server.vepa = some v)
    (hrep : Represents v.table m) (hmem : p.val.toNat ∈ portsAt m bcastKey)
    (hw : t.world = (s.server.count k.1 k.2 (· - 1#32)).world) (hvt : t.vepa = some v')
    (htab : v'.table = (delAddr v.table MacAddr.bcast 0#16 p).2)
    (hvlan : ∀ q, HasVlan t q ↔
      s.server.clients.privVlanCfg q ≠ s.server.clients.privVlanCfg p ∧ HasVlan s.server q) :
    LedgerInv ⟨t,Function.update s.regs k []⟩ := by
  have hrep' : Represents v'.table (dropPort m bcastKey p.val.toNat) := by
    rw [htab]
    exact (delAddr_bcast hrep hmem).2.1
  have hports : ∀ n, BcastPort t n ↔ n ≠ p.val.toNat ∧ BcastPort s.server n := by
    intro n
    rw [bcastPort_iff hvt hrep',bcastPort_iff hv hrep,portsAt_dropPort,Finset.mem_erase]
  refine hI.update hp hw ⟨_,_,hvt,hrep'⟩ ?_ ?_ (fun l q hl hlk => ?_) (fun h => absurd rfl h)
    (fun l q hl hlk hr => (hvlan q).mpr ⟨h.alone l q hl hlk hr,hI.vlans l q hl hr⟩)
  · rw [hc]
    rfl
  · exact iff_of_false (fun h => ((hports _).mp h).1 rfl) (fun h => h rfl)
  · rw [hports,hI.ports l q hl]
    refine and_iff_right_of_imp fun hr hqp => ?_
    obtain rfl : q = p := Subtype.ext (BitVec.eq_of_toNat_eq hqp)
    exact h.alone l q hl hlk hr rfl

/-- The last deregistration of a client keeps the books exactly when its
address is outstanding and it goes through to the end. -/
theorem unregister_last (hI : LedgerInv s)
    (hget : getClient s.server.world r.core r.token = some i)
    (hp : SwitchClient s.server.world (r.core,i) p) (hprim : Primary s.server p r.flowIdxOffset)
    (hgo : Goes r) (hc : (s.server.world.client r.core i).vlanRefCnt = 1#32) :
    (LedgerOk (step s (.unregister r)) ∧ StepOk s (.unregister r) ↔
        r.macAddr ∈ s.regs (r.core,i) ∧ LastGoes s (r.core,i) p r.x.unregister) ∧
      (r.macAddr ∈ s.regs (r.core,i) ∧ LastGoes s (r.core,i) p r.x.unregister →
        LedgerInv (step s (.unregister r))) := by
  obtain ⟨v,m,hv,hrep⟩ := hI.vepa
  have hcall := (call_unregister hget hp hI.ready hprim hgo).trans
    (unregisterSwitch_last hgo.classifier hv hc)
  have hlen : (s.regs (r.core,i)).length = 1 := by
    have hlen := hI.counted _ p hp
    rw [hc] at hlen
    exact hlen.symm
  have hsome : s.regs (r.core,i) ≠ [] := List.ne_nil_of_length_pos (by omega)
  have hright : StepOk s (.unregister r) := stepOk_unregister hget hsome
  have hmem : p.val.toNat ∈ portsAt m bcastKey :=
    (bcastPort_iff hv hrep).mp ((hI.ports _ p hp).mpr hsome)
  have hstatus : (unregisterClient v p r.x.unregister).status = sok ↔ _ :=
    unregisterClient_ok_iff hv hrep hmem
  by_cases hst : (unregisterClient v p r.x.unregister).status = sok
  · rw [hst] at hcall
    obtain ⟨hpol,hbcast⟩ := hstatus.mp hst
    have htab := (unregisterClient_goes v p hpol).1
    rw [step_unregister hget hcall]
    generalize ht : (({ s.server with
      dstMac := s.server.dstMac.erase (r.core,r.flowIdxOffset,r.macAddr) }.count r.core i
        (· - 1#32)).withVepa (unregisterClient v p r.x.unregister).vepa) = t
    have hw : t.world = (s.server.count r.core i (· - 1#32)).world := by rw [← ht]; rfl
    have hvt : t.vepa = some (unregisterClient v p r.x.unregister).vepa := by rw [← ht]; rfl
    have hcl : t.clients = (unregisterClient v p r.x.unregister).vepa.clients := by
      rw [← ht]; rfl
    have hvlan := hasVlan_of_unregistered hv hpol hcl
    have hkeep : r.macAddr ∈ s.regs (r.core,i) ∧ LastGoes s (r.core,i) p r.x.unregister →
        LedgerInv ⟨t,Function.update s.regs (r.core,i)
          ((s.regs (r.core,i)).erase r.macAddr)⟩ := by
      rintro ⟨hmac,hlast⟩
      have hnil : (s.regs (r.core,i)).erase r.macAddr = [] := by
        refine List.eq_nil_of_length_eq_zero ?_
        rw [List.length_erase_of_mem hmac,hlen]
      rw [hnil]
      exact hI.last hp hlast hc hv hrep hmem hw hvt htab hvlan
    refine ⟨⟨fun h => ?_,fun h => ⟨(hkeep h).ok,hright⟩⟩,hkeep⟩
    have hcounted := h.1.counted_after hp hw
    dsimp only at hcounted
    rw [hc] at hcounted
    refine ⟨?_,hpol,hbcast,fun l q hl hlk hr hpq => ?_⟩
    · by_contra hmac
      rw [List.erase_of_not_mem hmac,hlen] at hcounted
      exact absurd hcounted (by decide)
    · have hin := (h.1.inVepa_after hl hw).mpr (by rwa [update_of_ne hlk])
      exact ((hvlan q).mp hin.2).1 hpq
  · rw [step_failed hst hcall]
    have hno : ¬ (r.macAddr ∈ s.regs (r.core,i) ∧ LastGoes s (r.core,i) p r.x.unregister) :=
      fun h => hst (hstatus.mpr ⟨h.2.policer,h.2.bcast⟩)
    refine ⟨iff_of_false (fun h => ?_) hno,fun h => absurd h hno⟩
    -- The count is zero, but the failed request has undone nothing.
    have hbooks := h.1
    rw [← update_eq_self (r.core,i) s.regs] at hbooks
    have hcounted := hbooks.counted_after (f := (· - 1#32)) hp rfl
    dsimp only at hcounted
    rw [hc,hlen] at hcounted
    exact absurd hcounted (by decide)

/-- The condition on a registration, for the client and port it is of. -/
theorem regular_register_iff (hget : getClient s.server.world r.core r.token = some i)
    (hp : SwitchClient s.server.world (r.core,i) p) (hgo : Goes r) :
    Regular s (.register r) ↔ (s.server.world.client r.core i).vlanRefCnt ≠ 0xFFFFFFFF#32 ∧
      ((s.server.world.client r.core i).vlanRefCnt = 0#32 →
        FirstGoes s.server (r.core,i) p r.x.register) := by
  refine ⟨fun h => h i p hget hp hgo,fun h j q hj hq _ => ?_⟩
  obtain rfl : i = j := Option.some.inj (hget.symm.trans hj)
  obtain rfl := hp.port_unique hq
  exact h

/-- The condition on a deregistration. -/
theorem regular_unregister_iff (hget : getClient s.server.world r.core r.token = some i)
    (hp : SwitchClient s.server.world (r.core,i) p) (hgo : Goes r) :
    Regular s (.unregister r) ↔ r.macAddr ∈ s.regs (r.core,i) ∧
      ((s.server.world.client r.core i).vlanRefCnt = 1#32 →
        LastGoes s (r.core,i) p r.x.unregister) := by
  refine ⟨fun h => h i p hget hp hgo,fun h j q hj hq _ => ?_⟩
  obtain rfl : i = j := Option.some.inj (hget.symm.trans hj)
  obtain rfl := hp.port_unique hq
  exact h

/-- A request of a switch client on its primary flow keeps the books exactly
when it meets the condition. -/
theorem step_iff (hI : LedgerInv s) (e : Event procs) (hA : Allowed s e) :
    (LedgerOk (step s e) ∧ StepOk s e ↔ Regular s e) ∧ (Regular s e → LedgerInv (step s e)) := by
  obtain ⟨i,p,hget,hp,hprim⟩ := hA
  by_cases hgo : Goes e.req
  · cases e with
    | register r =>
      rw [regular_register_iff (r := r) hget hp hgo]
      by_cases hc : (s.server.world.client r.core i).vlanRefCnt = 0#32
      · have hmax : (s.server.world.client r.core i).vlanRefCnt ≠ 0xFFFFFFFF#32 := by
          rw [hc]
          decide
        rw [and_iff_right hmax,forall_prop_of_true hc]
        exact register_first hI hget hp hprim hgo hc
      · rw [and_iff_left fun hz => absurd hz hc]
        exact register_again hI hget hp hprim hgo hc
    | unregister r =>
      rw [regular_unregister_iff (r := r) hget hp hgo]
      by_cases hc : (s.server.world.client r.core i).vlanRefCnt = 1#32
      · rw [forall_prop_of_true hc]
        exact unregister_last hI hget hp hprim hgo hc
      · rw [and_iff_left fun hz => absurd hz hc]
        exact unregister_many hI hget hp hprim hgo hc
  · obtain ⟨hst,hsame⟩ := call_refused hget hp hgo
    have hstep : step s e = s := by
      have hcall : call s.server e = ((call s.server e).1,s.server) := Prod.ext rfl hsame
      exact step_failed hst hcall
    have hright : StepOk s e := by
      cases e with
      | register r => exact fun _ => by rw [hsame]; exact ⟨rfl,fun _ h => h⟩
      | unregister r => exact fun _ _ _ => ⟨hst,hsame⟩
    have hreg : Regular s e := by
      cases e with
      | register r => exact fun _ _ _ _ h => absurd h hgo
      | unregister r => exact fun _ _ _ _ h => absurd h hgo
    rw [hstep]
    exact ⟨iff_of_true ⟨hI.ok,hright⟩ hreg,fun _ => hI⟩

end Books

/-- The books are right in every state of a sequence of requests on the
primary flow exactly when every request that gets past the classifier meets
the condition. -/
theorem mac_ledger_iff (s : Ledger procs) (es : List (Event procs)) (h : Fresh s)
    (hallowed : Guarded step Allowed s es) :
    Along step LedgerOk s es ∧ Guarded step StepOk s es ↔ Guarded step Regular s es :=
  along_and_guarded_iff_of_allowed (fun _ hI => hI.ok)
    (fun _ e hI hA hG => (step_iff hI e hA).2 hG) (fun _ e hI hA => (step_iff hI e hA).1) h.inv
    hallowed

/-- The client of port 25 with an empty record. -/
def freshLedger : Ledger 1 := ⟨primaryClient,fun _ => []⟩

/-- A request for a unicast address on the primary flow, with all calls
succeeding. -/
def plainRequest : MacRequest 1 :=
  ⟨⟨0,Nat.one_pos⟩,2500#32,⟨2#8,0#8,0#8,0#8,0#8,1#8⟩,0#32,4#32,generousOutcomes 0#32 4#32⟩

/-- The same for another address. -/
def requestFor (macAddr : MacAddr) : MacRequest 1 := { plainRequest with macAddr := macAddr }

/-- The client of port 25 is the only one, and the requests are on its
primary flow. -/
structure OnlyClient (s : Ledger 1) : Prop where
  /-- Its token is found. -/
  found : getClient s.server.world 0 2500#32 = some 0
  /-- It is attached. -/
  attached : (s.server.world.client 0 0).attached = true
  /-- No other object is. -/
  only : ∀ j, (s.server.world.client 0 j).attached = true → j = 0
  /-- Its port. -/
  port : (s.server.world.client 0 0).virtPort = switchPort.val
  /-- Its primary flow. -/
  primary : Primary s.server switchPort 4#32

theorem OnlyClient.switchClient {s : Ledger 1} (h : OnlyClient s) :
    SwitchClient s.server.world (0,0) switchPort :=
  ⟨h.attached,h.port,isSwitchPort_switchPort0⟩

theorem OnlyClient.eq_of_switchClient {s : Ledger 1} (h : OnlyClient s) {k : ClientId 1}
    {p : PortId} (hp : SwitchClient s.server.world k p) : k = (0,0) := by
  obtain ⟨c,j⟩ := k
  obtain rfl : c = 0 := Subsingleton.elim c 0
  rw [h.only j hp.attached]

/-- Requests on the primary flow of the client are allowed. -/
theorem OnlyClient.allowed {s : Ledger 1} (h : OnlyClient s) {e : Event 1} {a : MacAddr}
    (he : e.req = requestFor a) : Allowed s e := by
  refine ⟨0,switchPort,?_,?_,?_⟩
  all_goals rw [he]
  · exact h.found
  · exact h.switchClient
  · exact h.primary

theorem onlyClient_freshLedger : OnlyClient freshLedger :=
  ⟨by decide,by decide,by decide,rfl,by decide⟩

theorem fresh_freshLedger : Fresh freshLedger := by
  have hzero : ∀ j, (primaryClient.world.client 0 j).vlanRefCnt = 0#32 := by decide
  refine ⟨rfl,⟨_,∅,rfl,represents_init _,Finmap.notMem_empty⟩,fun k p _ => ?_,fun _ => rfl⟩
  obtain ⟨c,j⟩ := k
  obtain rfl : c = 0 := Subsingleton.elim c 0
  exact hzero j

/-- The client of the requests that get past the classifier is at slot 0. -/
theorem OnlyClient.regular_register {s : Ledger 1} (h : OnlyClient s) (a : MacAddr)
    (hlast : (s.server.world.client 0 0).vlanRefCnt ≠ 0xFFFFFFFF#32)
    (hfirst : (s.server.world.client 0 0).vlanRefCnt = 0#32 →
      ∀ v, s.server.vepa = some v → HasRoom v.table) :
    Regular s (.register (requestFor a)) := by
  intro i p hi hp _
  obtain rfl : 0 = i := Option.some.inj (h.found.symm.trans hi)
  exact ⟨hlast,fun hz => ⟨rfl,rfl,fun v hv => Or.inr (hfirst hz v hv),
    fun l hl => h.eq_of_switchClient hl⟩⟩

theorem OnlyClient.regular_unregister {s : Ledger 1} (h : OnlyClient s) {a : MacAddr}
    (ha : a ∈ s.regs (0,0)) : Regular s (.unregister (requestFor a)) := by
  intro i p hi hp _
  obtain rfl : 0 = i := Option.some.inj (h.found.symm.trans hi)
  refine ⟨ha,fun _ => ⟨rfl,Or.inr rfl,fun l q hl hne => ?_⟩⟩
  exact absurd (h.eq_of_switchClient hl) hne

/-- Another address. -/
def otherAddr : MacAddr := ⟨2#8,0#8,0#8,0#8,0#8,2#8⟩

/-- Two addresses are registered, one of them twice, and deregistered. -/
def repeated : List (Event 1) :=
  [.register plainRequest,.register (requestFor otherAddr),.register plainRequest,
    .unregister plainRequest,.unregister (requestFor otherAddr),.unregister plainRequest]

theorem onlyClient_repeated {k : ℕ} (hk : k < 6) :
    OnlyClient (run step freshLedger (repeated.take k)) := by
  constructor <;> (revert k; decide +kernel)

/-- Registrations of which one is repeated keep the books. -/
theorem mac_ledger_iff_repeated :
    Along step LedgerOk freshLedger repeated ∧ Guarded step StepOk freshLedger repeated := by
  have hall : Guarded step Allowed freshLedger repeated :=
    ⟨(onlyClient_repeated (k := 0) (by omega)).allowed rfl,
      (onlyClient_repeated (k := 1) (by omega)).allowed rfl,
      (onlyClient_repeated (k := 2) (by omega)).allowed rfl,
      (onlyClient_repeated (k := 3) (by omega)).allowed rfl,
      (onlyClient_repeated (k := 4) (by omega)).allowed rfl,
      (onlyClient_repeated (k := 5) (by omega)).allowed rfl,trivial⟩
  refine (mac_ledger_iff freshLedger repeated fresh_freshLedger hall).mpr
    ⟨onlyClient_freshLedger.regular_register _ (by decide) fun _ v hv => ?_,
      (onlyClient_repeated (k := 1) (by omega)).regular_register _ (by decide +kernel) fun hz => ?_,
      (onlyClient_repeated (k := 2) (by omega)).regular_register _ (by decide +kernel) fun hz => ?_,
      (onlyClient_repeated (k := 3) (by omega)).regular_unregister (by decide +kernel),
      (onlyClient_repeated (k := 4) (by omega)).regular_unregister (by decide +kernel),
      (onlyClient_repeated (k := 5) (by omega)).regular_unregister (by decide +kernel),trivial⟩
  · obtain rfl := Option.some.inj hv
    decide
  · exact absurd hz (by decide +kernel)
  · exact absurd hz (by decide +kernel)

/-- A client without a registration deregisters an address that was never set
up, and the driver accepts the tear-down: the request succeeds. -/
theorem unregistered_client_deregisters :
    Guarded step Allowed freshLedger [.unregister plainRequest] ∧
      ¬ (Along step LedgerOk freshLedger [.unregister plainRequest] ∧
        Guarded step StepOk freshLedger [.unregister plainRequest]) := by
  refine ⟨⟨onlyClient_freshLedger.allowed rfl,trivial⟩,?_⟩
  rintro ⟨-,hstep,-⟩
  exact (hstep 0 onlyClient_freshLedger.found rfl).1 (by decide)

end EthernetFirmware.ProxyServerMacLedger
