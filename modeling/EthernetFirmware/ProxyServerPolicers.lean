import EthernetFirmware.ProxyServerIpv4

/-!
# Ethertype routes of the clients

A client registers an ethertype to have its packets routed to one of its
receive flows, and deregisters it again. Both requests turn into one call
on the classifier of the switch, which belongs to the driver: a parameter
says what a call does to it. Each handler tests the kind of virtual port by
itself, and the two tests are opposite.
-/

namespace EthernetFirmware.ProxyServerPolicers

open RemoteConfig ProxyServerClients ProxyServerIpv4

/-- What a policer matches on: the enabled packet field with its value. -/
inductive PolicerMatch where
  /-- `CPSW_ALE_POLICER_MATCH_ETHERTYPE`. -/
  | etherType (etherType : U16)
  deriving DecidableEq

/-- `CpswAle_SetPolicerEntryInArgs`. -/
structure SetPolicerEntryInArgs where
  /-- Packets to match. -/
  policerMatch : PolicerMatch
  /-- Whether matched packets go to a receive flow. -/
  threadIdEn : Bool
  /-- Flow of the matched packets. -/
  threadId : U32
  /-- Peak rate, zero for none. -/
  peakRateInBitsPerSec : U32
  /-- Committed rate, zero for none. -/
  commitRateInBitsPerSec : U32
  deriving DecidableEq

/-- Lookup table entries deleted with a policer. -/
inductive AleEntryMask where
  /-- `CPSW_ALE_POLICER_TABLEENTRY_DELETE_ETHERTYPE`. -/
  | deleteEthertype
  deriving DecidableEq

/-- `CpswAle_DelPolicerEntryInArgs`. -/
structure DelPolicerEntryInArgs where
  /-- Policer to delete. -/
  policerMatch : PolicerMatch
  /-- Lookup table entries to delete with it. -/
  aleEntryMask : AleEntryMask
  deriving DecidableEq

variable {procs : ℕ}

/-- Calls on the classifier, with the core they are made for. -/
inductive Ioctl (procs : ℕ) where
  /-- `CPSW_ALE_IOCTL_SET_POLICER`. -/
  | setPolicer (hostId : Fin procs) (setPolicerInArgs : SetPolicerEntryInArgs)
  /-- `CPSW_ALE_IOCTL_DEL_POLICER`. -/
  | delPolicer (hostId : Fin procs) (delPolicerInArgs : DelPolicerEntryInArgs)
  deriving DecidableEq

/-- Requests about ethertypes. -/
inductive EthertypeCmd where
  /-- `ETHREMOTECFG_CMD_REGISTER_MATCH_ETHTYPE`. -/
  | registerMatchEthtype (ethertype : U16) (flowIdxBase flowIdxOffset : U32)
  /-- `ETHREMOTECFG_CMD_DEREGISTER_MATCH_ETHTYPE`. -/
  | deregisterMatchEthtype (ethertype : U16)

/-- Status of a handler and the calls it has made. -/
structure Issued (procs : ℕ) where
  /-- Status the handler returns. -/
  status : Status
  /-- Calls on the classifier, in order. -/
  calls : List (Ioctl procs)

section Handlers

variable (w : World procs) (ioctlStatus : Status)

/-- `CpswProxyServer_registerEthertypeHandlerCb`. The base of the flow is
not used. -/
def registerEthertypeHandlerCb (hClient : ClientObj) (hostId : Fin procs) (etherType : U16)
    (_flowIdxBase flowIdxOffset : U32) : Issued procs :=
  if getHandle w.server = sok then
    if isSwitchPort hClient.virtPort then
      ⟨ioctlStatus,[.setPolicer hostId ⟨.etherType etherType,true,flowIdxOffset,0#32,0#32⟩]⟩
    else ⟨enotSupported,[]⟩
  else ⟨getHandle w.server,[]⟩

/-- `CpswProxyServer_deregisterEthertypeHandlerCb`. -/
def deregisterEthertypeHandlerCb (hClient : ClientObj) (hostId : Fin procs) (etherType : U16) :
    Issued procs :=
  if getHandle w.server = sok then
    -- The test is the negation of the one that registers.
    if !isSwitchPort hClient.virtPort then
      ⟨ioctlStatus,[.delPolicer hostId ⟨.etherType etherType,.deleteEthertype⟩]⟩
    else ⟨enotSupported,[]⟩
  else ⟨getHandle w.server,[]⟩

/-- `CpswProxyServer_clientRequestHandler` for the requests about
ethertypes. -/
def ethertypeRequestHandler (c : Client procs) : EthertypeCmd → Issued procs
  | cmd =>
    match getClient w c.core c.token with
    | none => ⟨efail,[]⟩
    | some i =>
      match cmd with
      | .registerMatchEthtype ethertype base offset =>
        registerEthertypeHandlerCb w ioctlStatus (w.client c.core i) c.core ethertype base offset
      | .deregisterMatchEthtype ethertype =>
        deregisterEthertypeHandlerCb w ioctlStatus (w.client c.core i) c.core ethertype

end Handlers

/-- The removal is of exactly the policer that the other call created, for
the same core. -/
def Removes : Ioctl procs → Ioctl procs → Prop
  | .delPolicer hostId d, .setPolicer hostId' p =>
    hostId = hostId' ∧ d.policerMatch = p.policerMatch
  | _, _ => False

/-- The server with the classifier of the switch. -/
structure RoutedServer (procs : ℕ) (σ : Type*) where
  /-- Server and platform. -/
  world : World procs
  /-- The classifier. -/
  ale : σ

section Runs

variable {σ : Type*} (ioctl : σ → Ioctl procs → σ)

/-- The classifier after the calls. -/
def applyCalls (s : RoutedServer procs σ) (calls : List (Ioctl procs)) : RoutedServer procs σ :=
  { s with ale := calls.foldl ioctl s.ale }

/-- Server after a request whose call succeeds. -/
def serve (s : RoutedServer procs σ) (r : Client procs × EthertypeCmd) : RoutedServer procs σ :=
  applyCalls ioctl s (ethertypeRequestHandler s.world sok r.1 r.2).calls

/-- A registration with a flow index base and offset, when it succeeds, is
undone by a deregistration of the ethertype. -/
def Inverse (s : RoutedServer procs σ) (c : Client procs) (ethertype : U16)
    (base offset : U32) : Prop :=
  let registered :=
    ethertypeRequestHandler s.world sok c (.registerMatchEthtype ethertype base offset)
  let s1 := serve ioctl s (c,.registerMatchEthtype ethertype base offset)
  let deregistered := ethertypeRequestHandler s1.world sok c (.deregisterMatchEthtype ethertype)
  registered.status = sok →
    deregistered.status = sok ∧
      List.Forall₂ Removes deregistered.calls registered.calls ∧
      (serve ioctl s1 (c,.deregisterMatchEthtype ethertype)).ale = s.ale

/-- Calls made along a run of requests. -/
def issued (s : RoutedServer procs σ) : List (Client procs × EthertypeCmd) → List (Ioctl procs)
  | [] => []
  | r :: rs =>
    (ethertypeRequestHandler s.world sok r.1 r.2).calls ++ issued (serve ioctl s r) rs

end Runs

section Permission

variable {w : World procs} {c : Client procs} {ethertype : U16} {base offset : U32}
  {status : Status}

/-- A registration is accepted exactly for a client on a virtual switch
port of a ready server. -/
theorem register_ok_iff :
    (ethertypeRequestHandler w sok c (.registerMatchEthtype ethertype base offset)).status = sok ↔
      getHandle w.server = sok ∧ MayRegister w c := by
  unfold MayRegister ethertypeRequestHandler registerEthertypeHandlerCb
  cases hget : getClient w c.core c.token with
  | none => simp
  | some i =>
    by_cases hready : getHandle w.server = sok
    · by_cases hswitch : isSwitchPort (w.client c.core i).virtPort = true <;>
        simp [hready,hswitch]
    · simp [hready]

/-- A client that may register may not deregister. -/
theorem deregister_refused (hmay : MayRegister w c) :
    (ethertypeRequestHandler w status c (.deregisterMatchEthtype ethertype)).status ≠ sok := by
  obtain ⟨i,hget,hswitch⟩ := hmay
  unfold ethertypeRequestHandler deregisterEthertypeHandlerCb
  by_cases hready : getHandle w.server = sok
  · simp [hget,hready,hswitch]
  · simp [hget,hready]

/-- A call is a registration for a client on a virtual switch port, or a
removal for a client that is not on one. -/
theorem call_cases {cmd : EthertypeCmd} {call : Ioctl procs}
    (h : call ∈ (ethertypeRequestHandler w status c cmd).calls) :
    (∃ p, call = .setPolicer c.core p ∧ MayRegister w c) ∨
      ∃ d, call = .delPolicer c.core d ∧ ¬ MayRegister w c := by
  unfold ethertypeRequestHandler at h
  cases hget : getClient w c.core c.token with
  | none =>
    rw [hget] at h
    cases h
  | some i =>
    rw [hget] at h
    cases cmd with
    | registerMatchEthtype ethertype base offset =>
      simp only [registerEthertypeHandlerCb] at h
      split_ifs at h with hready hswitch
      · exact Or.inl ⟨_,List.mem_singleton.mp h,i,hget,hswitch⟩
      · cases h
      · cases h
    | deregisterMatchEthtype ethertype =>
      simp only [deregisterEthertypeHandlerCb] at h
      split_ifs at h with hready hswitch
      · refine Or.inr ⟨_,List.mem_singleton.mp h,?_⟩
        rintro ⟨j,hj,hswitch'⟩
        rw [hget] at hj
        cases hj
        simp [hswitch'] at hswitch
      · cases h
      · cases h

end Permission

section Main

variable {σ : Type*} (ioctl : σ → Ioctl procs → σ)

/-- A registration can be undone exactly when it was refused. -/
theorem inverse_iff (s : RoutedServer procs σ) (c : Client procs) (ethertype : U16)
    (base offset : U32) :
    Inverse ioctl s c ethertype base offset ↔
      ¬ (getHandle s.world.server = sok ∧ MayRegister s.world c) := by
  unfold Inverse
  simp only [register_ok_iff]
  constructor
  · intro h hmay
    exact deregister_refused hmay.2 (h hmay).1
  · exact fun hrefused hmay => absurd hmay hrefused

/-- Along every run of requests a policer is created only for a client on
a virtual switch port, and removed only for one that is not. -/
theorem issued_cases (s : RoutedServer procs σ) (rs : List (Client procs × EthertypeCmd))
    {call : Ioctl procs} (h : call ∈ issued ioctl s rs) :
    ∃ r ∈ rs, (∃ p, call = .setPolicer r.1.core p ∧ MayRegister s.world r.1) ∨
      ∃ d, call = .delPolicer r.1.core d ∧ ¬ MayRegister s.world r.1 := by
  induction rs generalizing s with
  | nil => cases h
  | cons r rs ih =>
    rcases List.mem_append.mp h with hnow | hlater
    · exact ⟨r,List.mem_cons_self,call_cases hnow⟩
    · obtain ⟨r',hr',hcases⟩ := ih _ hlater
      exact ⟨r',List.mem_cons_of_mem _ hr',hcases⟩

/-- A classifier that is only the list of its policers. -/
def policerList (policers : List SetPolicerEntryInArgs) : Ioctl procs → List SetPolicerEntryInArgs
  | .setPolicer _ p => policers ++ [p]
  | .delPolicer _ d => policers.filter fun p => p.policerMatch ≠ d.policerMatch

/-- A client on a virtual switch port registers an ethertype and cannot
deregister it. -/
theorem route_not_removed :
    ¬ Inverse policerList ⟨twoClients.world,[]⟩ (clientOn 25#32) 0x88F7#16 0#32 5#32 := by
  intro h
  exact absurd (h (by decide)).1 (by decide)

end Main

end EthernetFirmware.ProxyServerPolicers
