import EthernetFirmware.ArpMap
import EthernetFirmware.ArpReplies
import EthernetFirmware.ProxyServerIpv4

/-!
# Proxy ARP from registration to reply

The server of IPv4 registrations and the handler of ARP frames together,
beside a server that keeps a finite map of IPv4 addresses and answers a
frame by looking its target address up there. Registrations carry no VLAN:
only frames without one, or with VLAN zero, are answered, and without a
tag. No other request, an attach or a detach included, changes the map.
-/

namespace EthernetFirmware.ProxyArp

open GuardedRuns Lockstep SlotTables RemoteConfig ArpTable ArpMap ArpReplies EthernetFrames
  ProxyServerClients ProxyServerRequests ProxyServerIpv4

variable {procs : ℕ}

/-- What the server is presented with. -/
inductive Event (procs : ℕ) where
  /-- A request of a client. -/
  | request (r : ProxyServerIpv4.Request procs)
  /-- A frame of the ARP flow, and whether there is a buffer for a reply. -/
  | arpFrame (f : Frame) (alloc : Bool)

/-- What comes of it. -/
inductive Outcome where
  /-- The answer to a request about virtual ports. -/
  | port (r : Response)
  /-- The status of a request about IPv4 addresses. -/
  | ipv4 (status : Status)
  /-- What was done with a frame. -/
  | frame (h : Handling)

/-- The server with its proxy ARP table. -/
def onServer (ismulticast : U32 → Bool) (s : ArpServer procs) :
    Event procs → Outcome × ArpServer procs
  | .request (.port e) => (.port (answer s.world e),serve ismulticast s (.port e))
  | .request (.ipv4 c cmd) =>
    let r := ipv4RequestHandler ismulticast c s cmd
    (.ipv4 r.1,r.2)
  | .arpFrame f alloc => (.frame (handleArpRxPktFxn s.arp f alloc),s)

/-- A server with a finite map in place of the table. -/
structure MapServer (procs : ℕ) where
  /-- Server and platform. -/
  world : World procs
  /-- Ethernet addresses of the registered IPv4 addresses. -/
  macs : Finmap fun _ : U32 => MacAddr

/-- A registration with the map: it takes addresses other than multicast ones
while they are known or there is room. -/
def register (ismulticast : U32 → Bool) (macs : Finmap fun _ : U32 => MacAddr)
    (macAddr : MacAddr) (ipAddr : U32) : Status × Finmap fun _ : U32 => MacAddr :=
  if macAddr.isMcast = false ∧ ismulticast ipAddr = false ∧
      (ipAddr ∈ macs ∨ macs.keys.card < tableSize) then
    (sok,macs.insert ipAddr macAddr)
  else (efail,macs)

/-- A deregistration. -/
def deregister (macs : Finmap fun _ : U32 => MacAddr) (ipAddr : U32) :
    Status × Finmap fun _ : U32 => MacAddr :=
  if ipAddr ∈ macs then (sok,macs.erase ipAddr) else (efail,macs)

/-- A request about IPv4 addresses: only attached clients on a virtual switch
port change the map. -/
def mapRequest (ismulticast : U32 → Bool) (c : Client procs) (s : MapServer procs)
    (cmd : Ipv4Cmd) : Status × MapServer procs :=
  match getClient s.world c.core c.token with
  | none => (efail,s)
  | some i =>
    if isSwitchPort (s.world.client c.core i).virtPort then
      let r := match cmd with
        | .registerIpv4 macAddr ipAddr => register ismulticast s.macs macAddr ipAddr
        | .deregisterIpv4 ipAddr => deregister s.macs ipAddr
      (r.1,{ s with macs := r.2 })
    else (enotSupported,s)

theorem arpReply_totLen_lt : 14 + sizeofEtharpHdr < 2 ^ 16 := by decide

/-- The reply for an Ethernet address: the ARP header alone, without a tag. -/
def untaggedReply (hwAddr : MacAddr) (f : Frame) : Frame where
  dest := (ethArpHdr f).shwaddr
  src := hwAddr
  ethType := ethTypeArp
  rest := memOf (arpHdrOf arpReply hwAddr (ethArpHdr f).dipaddr (ethArpHdr f).shwaddr
    (ethArpHdr f).sipaddr).bytes
  restLen := sizeofEtharpHdr
  totLen_lt := arpReply_totLen_lt

/-- A frame with the map. -/
def mapFrame (macs : Finmap fun _ : U32 => MacAddr) (f : Frame) (alloc : Bool) : Handling :=
  if f.vlanId = arpVlanId then
    match macs.lookup (ethArpHdr f).dipaddr with
    | some hwAddr => ⟨true,if alloc then some (untaggedReply hwAddr f) else none⟩
    | none => ⟨false,none⟩
  else ⟨false,none⟩

/-- The server with the map. -/
def onMapServer (ismulticast : U32 → Bool) (s : MapServer procs) :
    Event procs → Outcome × MapServer procs
  | .request (.port e) => (.port (answer s.world e),{ s with world := handle s.world e })
  | .request (.ipv4 c cmd) =>
    let r := mapRequest ismulticast c s cmd
    (.ipv4 r.1,r.2)
  | .arpFrame f alloc => (.frame (mapFrame s.macs f alloc),s)

/-- The table's map is the server's map with VLAN zero on every address. -/
def Carried (m : AddrMap) (macs : Finmap fun _ : U32 => MacAddr) : Prop :=
  ∀ k, m.lookup k = if k.2 = arpVlanId then macs.lookup k.1 else none

/-- The server and the server with the map are in the same state. -/
structure Matches (s : ArpServer procs) (t : MapServer procs) : Prop where
  /-- The platform is the same. -/
  world : s.world = t.world
  /-- The server serves requests. -/
  ready : Ready s.world
  /-- The table holds the map. -/
  table : ∃ m, Maps s.arp m ∧ Carried m t.macs

section Maps

variable {m : AddrMap} {macs : Finmap fun _ : U32 => MacAddr} {ip : U32} {mac : MacAddr}

theorem Carried.lookup_plain (h : Carried m macs) : m.lookup (ip,arpVlanId) = macs.lookup ip :=
  (h (ip,arpVlanId)).trans (if_pos rfl)

theorem Carried.mem_iff (h : Carried m macs) : (ip,arpVlanId) ∈ m ↔ ip ∈ macs := by
  rw [← Finmap.lookup_isSome,← Finmap.lookup_isSome,h.lookup_plain]

/-- Both maps have the same size. -/
theorem Carried.card_eq (h : Carried m macs) : m.keys.card = macs.keys.card := by
  have hkeys : m.keys = macs.keys.image fun ip => (ip,arpVlanId) := by
    ext ⟨ip,v⟩
    rw [Finmap.mem_keys,← Finmap.lookup_isSome,h,Finset.mem_image]
    simp only [Finmap.mem_keys,Prod.mk.injEq]
    by_cases hv : v = arpVlanId
    · subst hv
      rw [if_pos rfl,Finmap.lookup_isSome]
      constructor
      · exact fun hip => ⟨ip,hip,rfl,rfl⟩
      · rintro ⟨ip',hip,rfl,-⟩
        exact hip
    · rw [if_neg hv]
      refine iff_of_false (by simp) ?_
      rintro ⟨ip',-,-,hv'⟩
      exact hv hv'.symm
  rw [hkeys]
  exact Finset.card_image_of_injective _ fun a b hab => (Prod.mk.inj hab).1

theorem carried_empty : Carried ∅ ∅ := by
  intro k
  rw [Finmap.lookup_empty,Finmap.lookup_empty,ite_self]

theorem Carried.insert (h : Carried m macs) :
    Carried (m.insert (ip,arpVlanId) mac) (macs.insert ip mac) := by
  rintro ⟨ip',v⟩
  by_cases hv : v = arpVlanId
  · subst hv
    rw [if_pos rfl]
    by_cases hip : ip' = ip
    · subst hip
      rw [Finmap.lookup_insert,Finmap.lookup_insert]
    · rw [Finmap.lookup_insert_of_ne _ fun heq => hip (Prod.mk.inj heq).1,
        Finmap.lookup_insert_of_ne _ hip]
      exact h.lookup_plain
  · rw [Finmap.lookup_insert_of_ne _ fun heq => hv (Prod.mk.inj heq).2,h,if_neg hv,if_neg hv]

theorem Carried.erase (h : Carried m macs) :
    Carried (m.erase (ip,arpVlanId)) (macs.erase ip) := by
  rintro ⟨ip',v⟩
  by_cases hv : v = arpVlanId
  · subst hv
    rw [if_pos rfl]
    by_cases hip : ip' = ip
    · subst hip
      rw [Finmap.lookup_erase,Finmap.lookup_erase]
    · rw [Finmap.lookup_erase_ne fun heq => hip (Prod.mk.inj heq).1,Finmap.lookup_erase_ne hip]
      exact h.lookup_plain
  · rw [Finmap.lookup_erase_ne fun heq => hv (Prod.mk.inj heq).2,h,if_neg hv,if_neg hv]

end Maps

section Steps

variable (ismulticast : U32 → Bool) {s : ArpServer procs} {t : MapServer procs} {a : Table}
  {m : AddrMap} {macs : Finmap fun _ : U32 => MacAddr}

/-- A registration with the table is one with the map. -/
theorem addAddr_register (hm : Maps a m) (hc : Carried m macs) (mac : MacAddr) (ip : U32) :
    (if (addAddr ismulticast a ip mac arpVlanId).1 = sok then sok else efail) =
        (register ismulticast macs mac ip).1 ∧
      ∃ m', Maps (addAddr ismulticast a ip mac arpVlanId).2 m' ∧
        Carried m' (register ismulticast macs mac ip).2 := by
  unfold register
  by_cases hmc : mac.isMcast = true ∨ ismulticast ip = true
  · rw [addAddr_mcast hmc,if_neg einvalidParams_ne_sok,if_neg]
    · exact ⟨rfl,m,hm,hc⟩
    · rintro ⟨hmac,hip,-⟩
      rw [hmac,hip] at hmc
      simp at hmc
  · obtain ⟨hmac,hip⟩ := not_or.mp hmc
    rw [Bool.not_eq_true] at hmac hip
    by_cases hroom : (ip,arpVlanId) ∈ m ∨ m.keys.card < tableSize
    · obtain ⟨hok,hmaps⟩ := hm.addAddr_ok hmac hip hroom
      rw [hc.mem_iff,hc.card_eq] at hroom
      rw [if_pos hok,if_pos ⟨hmac,hip,hroom⟩]
      exact ⟨rfl,_,hmaps,hc.insert⟩
    · obtain ⟨hk,hfull⟩ := not_or.mp hroom
      rw [hm.addAddr_full hmac hip hk hfull,if_neg ealloc_ne_sok,if_neg]
      · exact ⟨rfl,m,hm,hc⟩
      · rintro ⟨-,-,hroom'⟩
        rw [← hc.mem_iff,← hc.card_eq] at hroom'
        exact hroom hroom'

/-- So is a deregistration. -/
theorem delAddr_deregister (hm : Maps a m) (hc : Carried m macs) (ip : U32) :
    (if (delAddr a ip arpVlanId).1 = sok then sok else efail) = (deregister macs ip).1 ∧
      ∃ m', Maps (delAddr a ip arpVlanId).2 m' ∧ Carried m' (deregister macs ip).2 := by
  unfold deregister
  by_cases hk : (ip,arpVlanId) ∈ m
  · obtain ⟨hok,hmaps⟩ := hm.delAddr_ok hk
    rw [if_pos hok,if_pos (hc.mem_iff.mp hk)]
    exact ⟨rfl,_,hmaps,hc.erase⟩
  · rw [hm.delAddr_fail hk,if_neg efail_ne_sok,if_neg fun h => hk (hc.mem_iff.mpr h)]
    exact ⟨rfl,m,hm,hc⟩

/-- A request about IPv4 addresses is answered with the map. -/
theorem ipv4_matches (h : Matches s t) (c : Client procs) (cmd : Ipv4Cmd) :
    Matches (ipv4RequestHandler ismulticast c s cmd).2 (mapRequest ismulticast c t cmd).2 ∧
      (ipv4RequestHandler ismulticast c s cmd).1 = (mapRequest ismulticast c t cmd).1 := by
  obtain ⟨hw,hready,m,hm,hc⟩ := h
  have hhandle : getHandle s.world.server = sok := by simp [getHandle,hready.1]
  unfold ipv4RequestHandler mapRequest
  rw [← hw]
  cases hg : getClient s.world c.core c.token with
  | none => exact ⟨⟨hw,hready,m,hm,hc⟩,rfl⟩
  | some i =>
    dsimp only
    by_cases hsw : isSwitchPort (s.world.client c.core i).virtPort = true
    · rw [if_pos hsw]
      cases cmd with
      | registerIpv4 mac ip =>
        obtain ⟨hst,htable⟩ := addAddr_register ismulticast hm hc mac ip
        simp only [registerIPv4MacHandlerCb,if_pos hhandle,if_pos hsw]
        exact ⟨⟨rfl,hready,htable⟩,hst⟩
      | deregisterIpv4 ip =>
        obtain ⟨hst,htable⟩ := delAddr_deregister hm hc ip
        simp only [deregisterIPv4MacHandlerCb,if_pos hhandle,if_pos hsw]
        exact ⟨⟨rfl,hready,htable⟩,hst⟩
    · rw [if_neg hsw]
      cases cmd with
      | registerIpv4 mac ip =>
        simp only [registerIPv4MacHandlerCb,if_pos hhandle,if_neg hsw]
        exact ⟨⟨hw,hready,m,hm,hc⟩,trivial⟩
      | deregisterIpv4 ip =>
        simp only [deregisterIPv4MacHandlerCb,if_pos hhandle,if_neg hsw]
        exact ⟨⟨hw,hready,m,hm,hc⟩,trivial⟩

/-- A reply on no VLAN is the ARP header alone. -/
theorem sendRaw_untagged {hwAddr : MacAddr} {f : Frame} {alloc : Bool}
    (hv : f.vlanId = arpVlanId) :
    sendRaw alloc hwAddr (ethArpHdr f).shwaddr hwAddr (ethArpHdr f).dipaddr
        (ethArpHdr f).shwaddr (ethArpHdr f).sipaddr f.vlanId arpReply =
      if alloc then some (untaggedReply hwAddr f) else none := by
  unfold sendRaw
  rw [hv]
  rfl

/-- The reply to a frame without a tag is as ARP wants it. -/
theorem untaggedReply_isReplyTo {hwAddr : MacAddr} {f : Frame} (hf : f.isTagged = false) :
    IsReplyTo f hwAddr (untaggedReply hwAddr f) := by
  have hv : f.vlanId = 0#16 := if_neg (by rw [hf]; exact Bool.false_ne_true)
  have hcarries : Carries (untaggedReply hwAddr f) hwAddr (ethArpHdr f).shwaddr f.vlanId
      (arpHdrOf arpReply hwAddr (ethArpHdr f).dipaddr (ethArpHdr f).shwaddr
        (ethArpHdr f).sipaddr) := by
    rw [hv]
    exact carries_untagged _ rfl
  refine (isReplyTo_iff hcarries).mpr fun htag => ?_
  rw [hf] at htag
  contradiction

/-- A frame is handled with the map. -/
theorem handleArpRxPktFxn_eq (hm : Maps a m) (hc : Carried m macs) (f : Frame) (alloc : Bool) :
    handleArpRxPktFxn a f alloc = mapFrame macs f alloc := by
  have hget : getHwAddr a (ethArpHdr f).dipaddr f.vlanId =
      if f.vlanId = arpVlanId then macs.lookup (ethArpHdr f).dipaddr else none :=
    hm.getHwAddr.trans (hc _)
  unfold mapFrame
  by_cases hv : f.vlanId = arpVlanId
  · rw [if_pos hv] at hget ⊢
    cases hmac : macs.lookup (ethArpHdr f).dipaddr with
    | none => exact handle_of_none (hget.trans hmac)
    | some hwAddr =>
      rw [handle_of_some (hget.trans hmac),sendRaw_untagged hv]
  · rw [if_neg hv] at hget ⊢
    exact handle_of_none hget

/-- Every event has the same outcome on both servers. -/
theorem matches_both (h : Matches s t) (e : Event procs) :
    Matches (next (onServer ismulticast) s e) (next (onMapServer ismulticast) t e) ∧
      (onServer ismulticast s e).1 = (onMapServer ismulticast t e).1 := by
  unfold next
  cases e with
  | request r =>
    cases r with
    | port e =>
      refine ⟨⟨?_,ready_handle h.ready,h.table⟩,?_⟩
      · exact congrArg (handle · e) h.world
      · exact congrArg (fun w => Outcome.port (answer w e)) h.world
    | ipv4 c cmd =>
      obtain ⟨hmatch,hst⟩ := ipv4_matches ismulticast h c cmd
      exact ⟨hmatch,congrArg Outcome.ipv4 hst⟩
  | arpFrame f alloc =>
    obtain ⟨m,hm,hc⟩ := h.table
    exact ⟨h,congrArg Outcome.frame (handleArpRxPktFxn_eq hm hc f alloc)⟩

end Steps

end EthernetFirmware.ProxyArp
