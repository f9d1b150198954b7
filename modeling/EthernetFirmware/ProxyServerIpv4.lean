import EthernetFirmware.Lockstep
import EthernetFirmware.ArpTable
import EthernetFirmware.ProxyServerRequests

/-!
# IPv4 registrations of the clients

Clients register their IPv4 addresses with the server, which then answers
ARP requests for them. The proxy ARP table is shared and records no owner:
a registration of a known address rewrites its Ethernet address, and any
client on a virtual switch port may deregister any address. The mapping
of an address outlives the requests of another client exactly when none of
them names the address in a way that changes it.
-/

namespace EthernetFirmware.ProxyServerIpv4

open GuardedRuns Lockstep RemoteConfig ArpTable ProxyServerClients ProxyServerRequests

variable {procs : ℕ}

/-- The server with its proxy ARP table. -/
structure ArpServer (procs : ℕ) where
  /-- Server and platform. -/
  world : World procs
  /-- Proxy ARP table. -/
  arp : Table

/-- A remote client: its core and the token in its requests. -/
@[ext] structure Client (procs : ℕ) where
  /-- Core of the client. -/
  core : Fin procs
  /-- Token of the client. -/
  token : U32
  deriving DecidableEq

/-- Requests about IPv4 addresses. -/
inductive Ipv4Cmd where
  /-- `ETHREMOTECFG_CMD_REGISTER_IPv4`. -/
  | registerIpv4 (macAddr : MacAddr) (ipAddr : U32)
  /-- `ETHREMOTECFG_CMD_DEREGISTER_IPv4`. -/
  | deregisterIpv4 (ipAddr : U32)

/-- VLAN of every registered address. -/
def arpVlanId : U16 := 0#16

section Handlers

variable (ismulticast : U32 → Bool)

/-- `CpswProxyServer_registerIPv4MacHandlerCb`. -/
def registerIPv4MacHandlerCb (s : ArpServer procs) (hClient : ClientObj) (macAddr : MacAddr)
    (ipAddr : U32) : Status × Table :=
  if getHandle s.world.server = sok then
    if isSwitchPort hClient.virtPort then
      let r := addAddr ismulticast s.arp ipAddr macAddr arpVlanId
      (if r.1 = sok then sok else efail,r.2)
    -- A virtual MAC port gets all its traffic and needs no proxy.
    else (enotSupported,s.arp)
  else (getHandle s.world.server,s.arp)

/-- `CpswProxyServer_deregisterIPv4MacHandlerCb`. -/
def deregisterIPv4MacHandlerCb (s : ArpServer procs) (hClient : ClientObj) (ipAddr : U32) :
    Status × Table :=
  if getHandle s.world.server = sok then
    if isSwitchPort hClient.virtPort then
      let r := delAddr s.arp ipAddr arpVlanId
      (if r.1 = sok then sok else efail,r.2)
    else (enotSupported,s.arp)
  else (getHandle s.world.server,s.arp)

/-- `CpswProxyServer_clientRequestHandler` for the requests about IPv4
addresses. -/
def ipv4RequestHandler (c : Client procs) (s : ArpServer procs) (cmd : Ipv4Cmd) :
    Status × ArpServer procs :=
  match getClient s.world c.core c.token with
  | none => (efail,s)
  | some i =>
    let r := match cmd with
      | .registerIpv4 macAddr ipAddr =>
        registerIPv4MacHandlerCb ismulticast s (s.world.client c.core i) macAddr ipAddr
      | .deregisterIpv4 ipAddr => deregisterIPv4MacHandlerCb s (s.world.client c.core i) ipAddr
    (r.1,{ s with arp := r.2 })

/-- Requests of all clients. -/
inductive Request (procs : ℕ) where
  /-- A request about virtual ports. -/
  | port (e : Event procs)
  /-- A request of a client about IPv4 addresses. -/
  | ipv4 (c : Client procs) (cmd : Ipv4Cmd)

/-- Server after a request. -/
def serve (s : ArpServer procs) : Request procs → ArpServer procs
  | .port e => { s with world := handle s.world e }
  | .ipv4 c cmd => (ipv4RequestHandler ismulticast c s cmd).2

end Handlers

/-- An initialised server with an initialised table. -/
def startUp (procs : ℕ) (csumOffloadEn : Bool) (virtPortCfg : List VirtPortCfg) (arp : Table) :
    ArpServer procs :=
  ⟨initServer procs csumOffloadEn virtPortCfg,(ArpTable.init true arp).2⟩

/-- The proxy ARP answer for the address is this Ethernet address. -/
def Mapped (ipAddr : U32) (macAddr : MacAddr) (s : ArpServer procs) : Prop :=
  getHwAddr s.arp ipAddr arpVlanId = some macAddr

instance (ip : U32) (mac : MacAddr) (s : ArpServer procs) : Decidable (Mapped ip mac s) :=
  inferInstanceAs (Decidable (_ = _))

/-- The server lets the client change the table: its token names a client
on a virtual switch port. -/
def MayRegister (w : World procs) (c : Client procs) : Prop :=
  ∃ i, getClient w c.core c.token = some i ∧ isSwitchPort (w.client c.core i).virtPort = true

/-- The request leaves the mapping alone: it does not deregister the
address, nor register it with another Ethernet address that the table
takes. -/
def Spares (ipAddr : U32) (macAddr : MacAddr) : Ipv4Cmd → Prop
  | .registerIpv4 mac ip => ip = ipAddr → mac.isMcast = false → mac = macAddr
  | .deregisterIpv4 ip => ip ≠ ipAddr

/-- The server is ready and its table is a finite map. -/
def ArpOk (s : ArpServer procs) : Prop := Ready s.world ∧ ∃ m, Maps s.arp m

variable {ismulticast : U32 → Bool} {s : ArpServer procs} {c : Client procs} {cmd : Ipv4Cmd}
  {t : Table} {m : AddrMap} {ip : U32} {mac : MacAddr} {v : U16}

/-- Every add leaves a finite map. -/
theorem maps_addAddr (h : Maps t m) : ∃ m', Maps (addAddr ismulticast t ip mac v).2 m' := by
  by_cases hmc : mac.isMcast = true ∨ ismulticast ip = true
  · rw [addAddr_mcast hmc]
    exact ⟨m,h⟩
  · obtain ⟨hmac,hip⟩ := not_or.mp hmc
    rw [Bool.not_eq_true] at hmac hip
    by_cases hroom : (ip,v) ∈ m ∨ m.keys.card < tableSize
    · exact ⟨_,(h.addAddr_ok hmac hip hroom).2⟩
    · obtain ⟨hk,hfull⟩ := not_or.mp hroom
      rw [h.addAddr_full hmac hip hk hfull]
      exact ⟨m,h⟩

/-- Every delete leaves a finite map. -/
theorem maps_delAddr (h : Maps t m) : ∃ m', Maps (delAddr t ip v).2 m' := by
  by_cases hk : (ip,v) ∈ m
  · exact ⟨_,(h.delAddr_ok hk).2⟩
  · rw [h.delAddr_fail hk]
    exact ⟨m,h⟩

/-- What a request of a client about IPv4 addresses leaves. -/
theorem ipv4RequestHandler_table (ismulticast : U32 → Bool) (c : Client procs) (cmd : Ipv4Cmd)
    (hs : Ready s.world) :
    (ipv4RequestHandler ismulticast c s cmd).2.world = s.world ∧
      ((¬ MayRegister s.world c ∧ (ipv4RequestHandler ismulticast c s cmd).2.arp = s.arp ∧
          (ipv4RequestHandler ismulticast c s cmd).1 ≠ sok) ∨
        (MayRegister s.world c ∧ (ipv4RequestHandler ismulticast c s cmd).2.arp =
          match cmd with
          | .registerIpv4 mac ip => (addAddr ismulticast s.arp ip mac arpVlanId).2
          | .deregisterIpv4 ip => (delAddr s.arp ip arpVlanId).2)) := by
  have hready : getHandle s.world.server = sok := by simp [getHandle,hs.1]
  unfold ipv4RequestHandler
  cases hg : getClient s.world c.core c.token with
  | none =>
    refine ⟨rfl,Or.inl ⟨?_,rfl,efail_ne_sok⟩⟩
    rintro ⟨i,hi,-⟩
    rw [hg] at hi
    contradiction
  | some i =>
    refine ⟨rfl,?_⟩
    by_cases hsw : isSwitchPort (s.world.client c.core i).virtPort = true
    · refine Or.inr ⟨⟨i,hg,hsw⟩,?_⟩
      cases cmd with
      | registerIpv4 mac ip => simp only [registerIPv4MacHandlerCb,if_pos hready,if_pos hsw]
      | deregisterIpv4 ip => simp only [deregisterIPv4MacHandlerCb,if_pos hready,if_pos hsw]
    · refine Or.inl ⟨?_,?_⟩
      · rintro ⟨j,hj,hswj⟩
        obtain rfl : i = j := Option.some.inj (hg.symm.trans hj)
        exact hsw hswj
      · cases cmd with
        | registerIpv4 mac ip =>
          simp only [registerIPv4MacHandlerCb,if_pos hready,if_neg hsw]
          exact ⟨trivial,enotSupported_ne_sok⟩
        | deregisterIpv4 ip =>
          simp only [deregisterIPv4MacHandlerCb,if_pos hready,if_neg hsw]
          exact ⟨trivial,enotSupported_ne_sok⟩

/-- Every request keeps the server ready and its table a finite map. -/
theorem arpOk_serve (hs : ArpOk s) (r : Request procs) : ArpOk (serve ismulticast s r) := by
  obtain ⟨hready,m,hm⟩ := hs
  cases r with
  | port e => exact ⟨ready_handle hready,m,hm⟩
  | ipv4 c cmd =>
    obtain ⟨hw,h⟩ := ipv4RequestHandler_table ismulticast c cmd hready
    refine ⟨?_,?_⟩
    · change Ready (ipv4RequestHandler ismulticast c s cmd).2.world
      rw [hw]
      exact hready
    · change ∃ m', Maps (ipv4RequestHandler ismulticast c s cmd).2.arp m'
      rcases h with ⟨-,harp,-⟩ | ⟨-,harp⟩
      · rw [harp]
        exact ⟨m,hm⟩
      · rw [harp]
        cases cmd with
        | registerIpv4 mac ip => exact maps_addAddr hm
        | deregisterIpv4 ip => exact maps_delAddr hm

/-- An accepted registration maps the address, which is no multicast
address. -/
theorem mapped_of_registered (hs : ArpOk s)
    (hok : (ipv4RequestHandler ismulticast c s (.registerIpv4 mac ip)).1 = sok) :
    ismulticast ip = false ∧
      Mapped ip mac (ipv4RequestHandler ismulticast c s (.registerIpv4 mac ip)).2 := by
  obtain ⟨hready,m,hm⟩ := hs
  have hstatus : (addAddr ismulticast s.arp ip mac arpVlanId).1 = sok := by
    unfold ipv4RequestHandler registerIPv4MacHandlerCb at hok
    split at hok
    · exact absurd hok efail_ne_sok
    · dsimp only at hok
      split_ifs at hok with h1 h2 h3
      · exact h3
      · exact absurd hok efail_ne_sok
      · exact absurd hok enotSupported_ne_sok
      · exact absurd hok h1
  rcases (ipv4RequestHandler_table ismulticast c (.registerIpv4 mac ip) hready).2 with
    ⟨-,-,hne⟩ | ⟨-,harp⟩
  · exact absurd hok hne
  · by_cases hmc : mac.isMcast = true ∨ ismulticast ip = true
    · rw [addAddr_mcast hmc] at hstatus
      exact absurd hstatus einvalidParams_ne_sok
    · obtain ⟨hmac,hip⟩ := not_or.mp hmc
      rw [Bool.not_eq_true] at hmac hip
      by_cases hroom : (ip,arpVlanId) ∈ m ∨ m.keys.card < tableSize
      · refine ⟨hip,?_⟩
        unfold Mapped
        rw [harp,(hm.addAddr_ok hmac hip hroom).2.getHwAddr,Finmap.lookup_insert]
      · obtain ⟨hk,hfull⟩ := not_or.mp hroom
        rw [hm.addAddr_full hmac hip hk hfull] at hstatus
        exact absurd hstatus ealloc_ne_sok

/-- An add keeps the mapping of an address unless it is an accepted add of
the same address with another Ethernet address. -/
theorem getHwAddr_addAddr_iff {ip' : U32} {mac' : MacAddr} (hm : Maps t m)
    (hip : ismulticast ip = false) (hmap : getHwAddr t ip v = some mac) :
    getHwAddr (addAddr ismulticast t ip' mac' v).2 ip v = some mac ↔
      (ip' = ip → mac'.isMcast = false → mac' = mac) := by
  have hlook : m.lookup (ip,v) = some mac := hm.getHwAddr.symm.trans hmap
  by_cases hmc : mac'.isMcast = true ∨ ismulticast ip' = true
  · rw [addAddr_mcast hmc]
    refine iff_of_true hmap fun heq hno => ?_
    rw [heq,hip,hno] at hmc
    simp at hmc
  · obtain ⟨hmac,hip'⟩ := not_or.mp hmc
    rw [Bool.not_eq_true] at hmac hip'
    by_cases heq : ip' = ip
    · subst heq
      have hmem : (ip',v) ∈ m := Finmap.mem_of_lookup_eq_some hlook
      rw [(hm.addAddr_ok hmac hip' (Or.inl hmem)).2.getHwAddr,Finmap.lookup_insert,
        Option.some.injEq]
      simp [hmac]
    · refine iff_of_true ?_ fun h => absurd h heq
      have hne : (ip,v) ≠ (ip',v) := fun h => heq (congrArg Prod.fst h).symm
      by_cases hroom : (ip',v) ∈ m ∨ m.keys.card < tableSize
      · rw [(hm.addAddr_ok hmac hip' hroom).2.getHwAddr,Finmap.lookup_insert_of_ne _ hne]
        exact hlook
      · obtain ⟨hk,hfull⟩ := not_or.mp hroom
        rw [hm.addAddr_full hmac hip' hk hfull]
        exact hmap

/-- A delete keeps the mapping of an address unless it is of the same
address. -/
theorem getHwAddr_delAddr_iff {ip' : U32} (hm : Maps t m) (hmap : getHwAddr t ip v = some mac) :
    getHwAddr (delAddr t ip' v).2 ip v = some mac ↔ ip' ≠ ip := by
  have hlook : m.lookup (ip,v) = some mac := hm.getHwAddr.symm.trans hmap
  by_cases heq : ip' = ip
  · subst heq
    have hmem : (ip',v) ∈ m := Finmap.mem_of_lookup_eq_some hlook
    rw [(hm.delAddr_ok hmem).2.getHwAddr,Finmap.lookup_erase]
    simp
  · refine iff_of_true ?_ heq
    have hne : (ip,v) ≠ (ip',v) := fun h => heq (congrArg Prod.fst h).symm
    by_cases hk : (ip',v) ∈ m
    · rw [(hm.delAddr_ok hk).2.getHwAddr,Finmap.lookup_erase_ne hne]
      exact hlook
    · rw [hm.delAddr_fail hk]
      exact hmap

/-- A request of a client keeps a mapping exactly when the client may not
change the table or the request spares the mapping. -/
theorem mapped_handler_iff (hs : ArpOk s) (hip : ismulticast ip = false) (hmap : Mapped ip mac s) :
    Mapped ip mac (ipv4RequestHandler ismulticast c s cmd).2 ↔
      (MayRegister s.world c → Spares ip mac cmd) := by
  obtain ⟨hready,m,hm⟩ := hs
  rcases (ipv4RequestHandler_table ismulticast c cmd hready).2 with ⟨hno,harp,-⟩ | ⟨hmay,harp⟩
  · refine iff_of_true ?_ fun h => absurd h hno
    unfold Mapped
    rw [harp]
    exact hmap
  · unfold Mapped
    rw [harp,imp_iff_right hmay]
    cases cmd with
    | registerIpv4 mac' ip' => exact getHwAddr_addAddr_iff hm hip hmap
    | deregisterIpv4 ip' => exact getHwAddr_delAddr_iff hm hmap

/-- A mapping in a good state outlives the requests of a client exactly
when the client may not change the table or every request spares it. -/
theorem mapped_run_iff (hs : ArpOk s) (hip : ismulticast ip = false) (hmap : Mapped ip mac s)
    (b : Client procs) (cmds : List Ipv4Cmd) :
    Along (next (ipv4RequestHandler ismulticast b)) (Mapped ip mac) s cmds ↔
      (MayRegister s.world b → ∀ cmd ∈ cmds, Spares ip mac cmd) := by
  have hrun : Along (next (ipv4RequestHandler ismulticast b)) (Mapped ip mac) s cmds ↔
      Guarded (next (ipv4RequestHandler ismulticast b))
        (fun _ cmd => MayRegister s.world b → Spares ip mac cmd) s cmds := by
    apply along_iff_guarded (I := fun s' => ArpOk s' ∧ Mapped ip mac s' ∧ s'.world = s.world)
    · exact fun s' h => h.2.1
    · intro s' cmd h hG
      refine ⟨arpOk_serve h.1 (.ipv4 b cmd),?_,?_⟩
      · exact (mapped_handler_iff h.1 hip h.2.1).mpr fun hmay => hG (by rwa [← h.2.2])
      · exact (ipv4RequestHandler_table ismulticast b cmd h.1.1).1.trans h.2.2
    · intro s' cmd h
      rw [← h.2.2]
      exact mapped_handler_iff h.1 hip h.2.1
    · exact ⟨hs,hmap,rfl⟩
  rw [hrun,guarded_const_iff]
  exact ⟨fun h hmay cmd hc => h cmd hc hmay,fun h cmd hc hmay => h hmay cmd hc⟩

/-- Every request served by an initialised server leaves its table a
finite map. -/
theorem arpOk_reachable (csum : Bool) (cfg : List VirtPortCfg) (arp : Table)
    (requests : List (Request procs)) :
    ArpOk (run (serve ismulticast) (startUp procs csum cfg arp) requests) := by
  apply run_invariant (I := ArpOk) fun s r hs => arpOk_serve hs r
  exact ⟨ready_initServer csum cfg,∅,maps_init arp⟩

/-- The class D test of the network stack on addresses in network order. -/
def classD (ip : U32) : Bool := ip &&& 0xF0#32 == 0xE0#32

/-- A client of the only core attaches a virtual port. -/
def attachPort (v : U32) : Request 1 :=
  .port ⟨plainOutcomes fun _ => 1518#32,⟨⟨0,Nat.one_pos⟩,100#32,0#8,0#32,0#32,.attach v⟩⟩

/-- The client on a virtual port of the only core. -/
def clientOn (v : U32) : Client 1 := ⟨⟨0,Nat.one_pos⟩,virtPort2Token v⟩

/-- Two clients on the ports 25 and 26. -/
def twoClients : ArpServer 1 :=
  run (serve classD) (startUp 1 false [] fun _ => ⟨0#32,MacAddr.bcast,0#16,true⟩)
    [attachPort 25#32,attachPort 26#32]

end EthernetFirmware.ProxyServerIpv4
