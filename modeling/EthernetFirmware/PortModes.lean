import EthernetFirmware.CArrays
import EthernetFirmware.VlanIsolation

/-!
# Modes of the ports

When the server starts it decides which MAC ports are switched and which
belong to one virtual port alone, and sets up the default VLAN, the members
and the flood masks of every port to suit. A port is MAC-only when some
virtual port of the configuration is that port; the masks are built in
loops over the configuration, which may name a port more than once or a
virtual MAC port whose port is not enabled.
-/

namespace EthernetFirmware.PortModes

open Function BitMasks RemoteConfig
open VlanTable (VlanCfg hostPortMask)

/-- `Enet_MacPort`. -/
abbrev MacPort := Fin 8

/-- `ETHFW_VLAN_ID_MAX`. -/
def vlanIdMax : U32 := 4094#32

/-- `ETHFW_HOST_PORT_VLAN_ID`. -/
def hostPortVlanId : U32 := 1#32

/-- Sizes that differ between boards. -/
structure Limits where
  /-- `ETHFW_MAC_PORT_MAX`. -/
  macPortMax : ℕ
  /-- `ETHFW_REMOTE_CLIENT_MAX`. -/
  remoteClientMax : ℕ

/-- What `EthFw_Config` says about ports and VLANs. -/
structure EthFwConfig where
  /-- There is a `setPortCfg` callback. -/
  setPortCfg : Bool
  /-- Enabled MAC ports. -/
  ports : List MacPort
  /-- Port identities of the virtual ports. -/
  virtPortCfg : List U32
  /-- Default VLAN of MAC-only ports. -/
  dfltVlanIdMacOnlyPorts : U32
  /-- Default VLAN of switch ports. -/
  dfltVlanIdSwitchPorts : U32
  /-- Static VLANs. -/
  vlanCfg : List VlanCfg
  /-- Default port mask. -/
  defaultPortMask : U32
  /-- Default virtual port mask. -/
  defaultVirtPortMask : U32
  /-- Dynamic VLANs forward to all switch ports. -/
  dVlanSwtFwdEn : Bool

/-- What depends on the mode of the port in `CpswAle_PortCfg`; settings that
are the same for all ports are left out. -/
structure AlePortCfg where
  /-- The port is MAC-only. -/
  macOnlyEn : Bool
  /-- Addresses are not learned. -/
  noLearn : Bool
  /-- VLAN of untagged frames. -/
  vlanId : U32
  /-- Members of that VLAN. -/
  vlanMemberList : U32
  /-- Ports that registered multicast frames are flooded to. -/
  regMcastFloodMask : U32
  /-- Ports that unregistered multicast frames are flooded to. -/
  unregMcastFloodMask : U32
  /-- Ports that frames leave without their tag. -/
  forceUntaggedEgressMask : U32

/-- `EthFw_Port`: a MAC port and the identity of its VLAN. -/
structure EthFwPort where
  /-- The port. -/
  macPort : MacPort
  /-- `portVID`. -/
  portVID : U32

/-- What `EthFw_Obj` has of ports. -/
structure EthFwObj where
  /-- Default VLAN of MAC-only ports. -/
  dfltVlanIdMacOnlyPorts : U32
  /-- Default VLAN of switch ports. -/
  dfltVlanIdSwitchPorts : U32
  /-- The enabled ports. -/
  ports : List EthFwPort
  /-- Their mask. -/
  enabledPortMask : U32
  /-- Ports in MAC-only mode. -/
  macOnlyPortMask : U32
  /-- Ports in switch mode. -/
  switchPortMask : U32
  /-- ALE configuration of a port, the host port first. -/
  portCfg : ℕ → AlePortCfg

variable (cfg : EthFwConfig) (o : EthFwObj)

/-- `ENET_MACPORT_MASK`. -/
def macPortMask (p : MacPort) : U32 := bit p.val

/-- The port of a virtual MAC port. -/
def virtMacPort (v : U32) : Option MacPort :=
  if h : isMacPort v = true then some ⟨(getMacPort v).toNat,by
    have hrange := toNat_of_isMacPort h
    have hle : macPort1 ≤ v := BitVec.le_def.mpr hrange.1
    unfold getMacPort
    rw [BitVec.toNat_sub_of_le hle]
    have hone : macPort1.toNat = 1 := rfl
    omega⟩
  else none

/-- `EthFw_getDfltVlanId`. -/
def getDfltVlanId : Status × EthFwObj :=
  if vlanIdMax < cfg.dfltVlanIdMacOnlyPorts ∨ vlanIdMax < cfg.dfltVlanIdSwitchPorts ∨
      cfg.dfltVlanIdMacOnlyPorts = cfg.dfltVlanIdSwitchPorts then (einvalidParams,o)
  else
    (sok,{ o with
      dfltVlanIdMacOnlyPorts := cfg.dfltVlanIdMacOnlyPorts
      dfltVlanIdSwitchPorts := cfg.dfltVlanIdSwitchPorts })

/-- The ALE configuration with the VLAN of every port set to the last one. -/
def resetVlanIds (portCfg : ℕ → AlePortCfg) (i : ℕ) : AlePortCfg :=
  if i ≤ 8 then { portCfg i with vlanId := vlanIdMax } else portCfg i

/-- Mask with the port of a virtual port, if it is a MAC port. -/
def addVirtPort (m v : U32) : U32 :=
  match virtMacPort v with
  | some p => m ||| macPortMask p
  | none => m

/-- `EthFw_getPortConfig`, less the transmit channels it marks as open. -/
def getPortConfig (lim : Limits) : Status × EthFwObj :=
  let o := { o with portCfg := resetVlanIds o.portCfg }
  if cfg.setPortCfg = false ∨ lim.macPortMax < cfg.ports.length ∨
      lim.remoteClientMax < cfg.virtPortCfg.length then (einvalidParams,o)
  else
    let enabled := cfg.ports.foldl (fun m p => m ||| macPortMask p) o.enabledPortMask
    let macOnly := cfg.virtPortCfg.foldl addVirtPort o.macOnlyPortMask
    (sok,{ o with
      ports := cfg.ports.map fun p => ⟨p,0#32⟩
      enabledPortMask := enabled
      macOnlyPortMask := macOnly
      switchPortMask := enabled &&& ~~~macOnly })

/-- `EthFw_isMacOnlyPort`. -/
def isMacOnlyPort (p : MacPort) : Bool := o.macOnlyPortMask &&& macPortMask p != 0#32

/-- `EthFw_getMacPortConfig`: the first entry of the port. -/
def getMacPortConfig (p : MacPort) : Option EthFwPort :=
  o.ports.find? fun e => e.macPort = p

/-- Set the VLAN of the first entry of a port. -/
def setPortVID (p : MacPort) (vid : U32) : List EthFwPort → List EthFwPort
  | [] => []
  | e :: l => if e.macPort = p then ⟨p,vid⟩ :: l else e :: setPortVID p vid l

/-- Default VLAN of a port. -/
def dfltVlanId (p : MacPort) : U32 :=
  if isMacOnlyPort o p then o.dfltVlanIdMacOnlyPorts else o.dfltVlanIdSwitchPorts

/-- `EthFw_setPortVlan`. -/
def setPortVlan : EthFwObj :=
  { o with
    ports := o.ports.foldl (fun l e => setPortVID e.macPort (dfltVlanId o e.macPort) l) o.ports }

/-- ALE configuration of a port in its mode. -/
def modeCfg (p : MacPort) : AlePortCfg :=
  if isMacOnlyPort o p then
    { macOnlyEn := true
      noLearn := true
      vlanId := o.dfltVlanIdMacOnlyPorts
      vlanMemberList := o.macOnlyPortMask <<< 1 ||| hostPortMask
      regMcastFloodMask := o.macOnlyPortMask <<< 1 ||| hostPortMask
      unregMcastFloodMask := o.macOnlyPortMask <<< 1 ||| hostPortMask
      forceUntaggedEgressMask := o.macOnlyPortMask <<< 1 ||| hostPortMask }
  else
    { macOnlyEn := false
      noLearn := false
      vlanId := o.dfltVlanIdSwitchPorts
      vlanMemberList := o.switchPortMask <<< 1 ||| hostPortMask
      regMcastFloodMask := o.switchPortMask <<< 1 ||| hostPortMask
      unregMcastFloodMask := 0#32
      forceUntaggedEgressMask := o.switchPortMask <<< 1 ||| hostPortMask }

/-- `EthFw_setPortMode`: the entries of the enabled ports, then the host
port; `allPorts` is `CPSW_ALE_ALL_PORTS_MASK`. -/
def setPortMode (allPorts : U32) : EthFwObj :=
  let portCfg := o.ports.foldl
    (fun f e => update f (e.macPort.val + 1) (modeCfg o e.macPort)) o.portCfg
  { o with portCfg := update portCfg 0 { portCfg 0 with
      noLearn := false
      vlanId := hostPortVlanId
      vlanMemberList := allPorts
      regMcastFloodMask := allPorts
      unregMcastFloodMask := 0#32
      forceUntaggedEgressMask := allPorts } }

/-- The object zeroed, with the ALE configuration of the driver. -/
def zeroed (portCfg : ℕ → AlePortCfg) : EthFwObj := ⟨0#32,0#32,[],0#32,0#32,0#32,portCfg⟩

/-- The set-up of the ports in `EthFw_init`. -/
def setupPorts (lim : Limits) (allPorts : U32) (portCfg : ℕ → AlePortCfg) : Status × EthFwObj :=
  let r := getDfltVlanId cfg (zeroed portCfg)
  if r.1 = sok then
    let r := getPortConfig cfg r.2 lim
    if r.1 = sok then (sok,setPortMode (setPortVlan r.2) allPorts) else r
  else r

/-- The configuration that `EthFw_setupVlan` passes on. -/
def setupVlan : VlanTable.Cfg where
  vlanCfg := cfg.vlanCfg
  dfltVlanIdSwitchPorts := o.dfltVlanIdSwitchPorts
  dfltVlanIdMacOnlyPorts := o.dfltVlanIdMacOnlyPorts
  switchPortMask := o.switchPortMask
  macOnlyPortMask := o.macOnlyPortMask
  defaultPortMask := cfg.defaultPortMask
  defaultVirtPortMask := cfg.defaultVirtPortMask
  dVlanSwtFwdEn := cfg.dVlanSwtFwdEn

/-- Some virtual port of the configuration is the port. -/
def MacOnly (p : MacPort) : Prop := ∃ v ∈ cfg.virtPortCfg, virtMacPort v = some p

/-- The checks made on the configuration. -/
structure Accepted (lim : Limits) : Prop where
  /-- The VLAN of MAC-only ports exists. -/
  macOnlyVlan : cfg.dfltVlanIdMacOnlyPorts ≤ vlanIdMax
  /-- So does the VLAN of switch ports. -/
  switchVlan : cfg.dfltVlanIdSwitchPorts ≤ vlanIdMax
  /-- They differ. -/
  vlans : cfg.dfltVlanIdMacOnlyPorts ≠ cfg.dfltVlanIdSwitchPorts
  /-- There is a callback for the settings of a port. -/
  callback : cfg.setPortCfg = true
  /-- There are not too many ports. -/
  ports : cfg.ports.length ≤ lim.macPortMax
  /-- Nor too many virtual ports. -/
  virtPorts : cfg.virtPortCfg.length ≤ lim.remoteClientMax

/-- The enabled ports are kept apart by their modes. -/
structure Separated : Prop where
  /-- No port is in both modes. -/
  modes : o.switchPortMask &&& o.macOnlyPortMask = 0#32
  /-- Ports share a member list exactly when they share the mode. -/
  members : ∀ p ∈ cfg.ports, ∀ q ∈ cfg.ports,
    isSet (o.portCfg (p.val + 1)).vlanMemberList (q.val + 1) = true ↔
      (MacOnly cfg p ↔ MacOnly cfg q)
  /-- They share the default VLAN exactly then. -/
  vlans : ∀ p ∈ cfg.ports, ∀ q ∈ cfg.ports,
    (o.portCfg (p.val + 1)).vlanId = (o.portCfg (q.val + 1)).vlanId ↔
      (MacOnly cfg p ↔ MacOnly cfg q)
  /-- The host port is a member everywhere. -/
  host : ∀ p ∈ cfg.ports, isSet (o.portCfg (p.val + 1)).vlanMemberList 0 = true
  /-- Registered multicast is flooded to the members. -/
  regFlood : ∀ p ∈ cfg.ports,
    (o.portCfg (p.val + 1)).regMcastFloodMask = (o.portCfg (p.val + 1)).vlanMemberList
  /-- Unregistered multicast is flooded to the members of a MAC-only port
  and nowhere from a switch port. -/
  unregFlood : ∀ p ∈ cfg.ports,
    (MacOnly cfg p → (o.portCfg (p.val + 1)).unregMcastFloodMask =
      (o.portCfg (p.val + 1)).vlanMemberList) ∧
    (¬ MacOnly cfg p → (o.portCfg (p.val + 1)).unregMcastFloodMask = 0#32)
  /-- The ALE learns from switch ports alone. -/
  learning : ∀ p ∈ cfg.ports, (o.portCfg (p.val + 1)).macOnlyEn =
      (o.portCfg (p.val + 1)).noLearn ∧
    ((o.portCfg (p.val + 1)).macOnlyEn = true ↔ MacOnly cfg p)
  /-- The port tags with the VLAN that the ALE gives it. -/
  tags : ∀ p ∈ cfg.ports,
    getMacPortConfig o p = some ⟨p,(o.portCfg (p.val + 1)).vlanId⟩
  /-- A port that is not enabled keeps the last VLAN. -/
  unused : ∀ p : MacPort, p ∉ cfg.ports → (o.portCfg (p.val + 1)).vlanId = vlanIdMax

variable {cfg o} {p q : MacPort} {lim : Limits} {allPorts vid : U32} {portCfg : ℕ → AlePortCfg}
  {l : List EthFwPort} {m : U32} {k : ℕ}

/-- The mask of a port holds that port. -/
theorem isSet_macPortMask : isSet (macPortMask p) q.val = true ↔ p = q := by
  have hp := p.isLt
  unfold macPortMask
  rw [isSet_bit,decide_eq_true_iff,Fin.ext_iff]
  omega

/-- Ports are enabled when they are listed. -/
theorem isSet_enabled (ports : List MacPort) :
    isSet (ports.foldl (fun m p => m ||| macPortMask p) m) q.val = true ↔
      isSet m q.val = true ∨ q ∈ ports := by
  induction ports generalizing m with
  | nil => simp
  | cons p ports ih =>
    rw [List.foldl_cons,ih,isSet_or,Bool.or_eq_true,isSet_macPortMask,List.mem_cons,or_assoc,
      eq_comm (a := q)]

theorem isSet_addVirtPort (v : U32) :
    isSet (addVirtPort m v) q.val = true ↔ isSet m q.val = true ∨ virtMacPort v = some q := by
  unfold addVirtPort
  cases virtMacPort v with
  | none => simp
  | some p => rw [isSet_or,Bool.or_eq_true,isSet_macPortMask,Option.some.injEq]

/-- Ports are MAC-only when some virtual port is that port. -/
theorem isSet_macOnly (virtPorts : List U32) :
    isSet (virtPorts.foldl addVirtPort m) q.val = true ↔
      isSet m q.val = true ∨ ∃ v ∈ virtPorts, virtMacPort v = some q := by
  induction virtPorts generalizing m with
  | nil => simp
  | cons v virtPorts ih =>
    rw [List.foldl_cons,ih,isSet_addVirtPort,List.exists_mem_cons_iff,or_assoc]

/-- The mask test of the source is membership. -/
theorem isMacOnlyPort_iff : isMacOnlyPort o p = true ↔ isSet o.macOnlyPortMask p.val = true :=
  Iff.rfl

/-- The first entry of a port after the VLAN of some port is set. -/
theorem find_setPortVID :
    (setPortVID q vid l).find? (fun e => e.macPort = p) =
      if q = p then (l.find? fun e => e.macPort = p).map fun _ => ⟨p,vid⟩
      else l.find? fun e => e.macPort = p := by
  induction l with
  | nil => simp [setPortVID]
  | cons e l ih =>
    unfold setPortVID
    by_cases he : e.macPort = q
    · by_cases hq : q = p
      · simp [he,hq]
      · simp [he,hq]
    · rw [if_neg he]
      by_cases hp : e.macPort = p
      · have hqp : q ≠ p := fun h => he (hp.trans h.symm)
        simp [hp,hqp]
      · simp only [List.find?_cons,hp,decide_false,ih]

/-- The first entry of a port after the VLANs of all listed ports are set. -/
theorem find_setPortVIDs (vids : MacPort → U32) (ports : List MacPort) :
    (ports.foldl (fun l q => setPortVID q (vids q) l) l).find? (fun e => e.macPort = p) =
      if p ∈ ports then (l.find? fun e => e.macPort = p).map fun _ => ⟨p,vids p⟩
      else l.find? fun e => e.macPort = p := by
  induction ports generalizing l with
  | nil => simp
  | cons q ports ih =>
    rw [List.foldl_cons,ih,find_setPortVID]
    by_cases hq : q = p
    · subst hq
      simp [Option.map_map,comp_def]
    · simp [hq,Ne.symm hq]

/-- A listed port has an entry. -/
theorem find_entries (ports : List MacPort) (hp : p ∈ ports) :
    (ports.map fun q => (⟨q,0#32⟩ : EthFwPort)).find? (fun e => e.macPort = p) =
      some ⟨p,0#32⟩ := by
  induction ports with
  | nil => contradiction
  | cons q ports ih =>
    by_cases hq : q = p
    · simp [hq]
    · have hmem : p ∈ ports := (List.mem_cons.mp hp).resolve_left (Ne.symm hq)
      simpa [hq] using ih hmem

/-- Setting VLANs leaves the ports of the entries. -/
theorem macPorts_setPortVID :
    (setPortVID q vid l).map EthFwPort.macPort = l.map EthFwPort.macPort := by
  induction l with
  | nil => rfl
  | cons e l ih =>
    unfold setPortVID
    split_ifs with he
    · simp [he]
    · simp [ih]

theorem macPorts_setPortVIDs (vids : MacPort → U32) (entries : List EthFwPort) :
    (entries.foldl (fun l e => setPortVID e.macPort (vids e.macPort) l) l).map
      EthFwPort.macPort = l.map EthFwPort.macPort := by
  induction entries generalizing l with
  | nil => rfl
  | cons e entries ih => rw [List.foldl_cons,ih,macPorts_setPortVID]

/-- The object after the checks of `EthFw_getDfltVlanId` and
`EthFw_getPortConfig`. -/
def configured (cfg : EthFwConfig) (portCfg : ℕ → AlePortCfg) : EthFwObj where
  dfltVlanIdMacOnlyPorts := cfg.dfltVlanIdMacOnlyPorts
  dfltVlanIdSwitchPorts := cfg.dfltVlanIdSwitchPorts
  ports := cfg.ports.map fun p => ⟨p,0#32⟩
  enabledPortMask := cfg.ports.foldl (fun m p => m ||| macPortMask p) 0#32
  macOnlyPortMask := cfg.virtPortCfg.foldl addVirtPort 0#32
  switchPortMask := cfg.ports.foldl (fun m p => m ||| macPortMask p) 0#32 &&&
    ~~~cfg.virtPortCfg.foldl addVirtPort 0#32
  portCfg := resetVlanIds portCfg

theorem getDfltVlanId_ok_iff :
    (getDfltVlanId cfg o).1 = sok ↔ cfg.dfltVlanIdMacOnlyPorts ≤ vlanIdMax ∧
      cfg.dfltVlanIdSwitchPorts ≤ vlanIdMax ∧
      cfg.dfltVlanIdMacOnlyPorts ≠ cfg.dfltVlanIdSwitchPorts := by
  unfold getDfltVlanId
  split_ifs with h
  · simp only [einvalidParams_ne_sok,false_iff,not_and_or,BitVec.not_le,not_not]
    exact h
  · simpa only [not_or,BitVec.not_lt,true_iff] using h

theorem getPortConfig_ok_iff :
    (getPortConfig cfg o lim).1 = sok ↔ cfg.setPortCfg = true ∧
      cfg.ports.length ≤ lim.macPortMax ∧ cfg.virtPortCfg.length ≤ lim.remoteClientMax := by
  unfold getPortConfig
  dsimp only
  split_ifs with h
  · simp only [einvalidParams_ne_sok,false_iff,not_and_or,not_le,Bool.not_eq_true]
    exact h
  · simpa only [not_or,not_lt,Bool.not_eq_false,true_iff] using h

/-- Exactly the accepted configurations are set up. -/
theorem setupPorts_ok_iff :
    (setupPorts cfg lim allPorts portCfg).1 = sok ↔ Accepted cfg lim := by
  have hsteps : (setupPorts cfg lim allPorts portCfg).1 = sok ↔
      (getDfltVlanId cfg (zeroed portCfg)).1 = sok ∧
      (getPortConfig cfg (getDfltVlanId cfg (zeroed portCfg)).2 lim).1 = sok := by
    unfold setupPorts
    dsimp only
    split_ifs with h1 h2
    · simp [h1,h2]
    · simp [h1,h2]
    · simp [h1]
  rw [hsteps,getDfltVlanId_ok_iff,getPortConfig_ok_iff]
  constructor
  · intro ⟨⟨hm,hs,hne⟩,hcb,hp,hv⟩
    exact ⟨hm,hs,hne,hcb,hp,hv⟩
  · intro ⟨hm,hs,hne,hcb,hp,hv⟩
    exact ⟨⟨hm,hs,hne⟩,hcb,hp,hv⟩

/-- What is set up. -/
theorem setupPorts_eq (h : Accepted cfg lim) :
    (setupPorts cfg lim allPorts portCfg).2 =
      setPortMode (setPortVlan (configured cfg portCfg)) allPorts := by
  have hvlans : (getDfltVlanId cfg (zeroed portCfg)).1 = sok :=
    getDfltVlanId_ok_iff.mpr ⟨h.macOnlyVlan,h.switchVlan,h.vlans⟩
  have hports : (getPortConfig cfg (getDfltVlanId cfg (zeroed portCfg)).2 lim).1 = sok :=
    getPortConfig_ok_iff.mpr ⟨h.callback,h.ports,h.virtPorts⟩
  unfold setupPorts
  dsimp only
  rw [if_pos hvlans,if_pos hports]
  unfold getPortConfig at hports ⊢
  unfold getDfltVlanId at hvlans ⊢
  dsimp only at hports hvlans ⊢
  split at hvlans
  · exact absurd hvlans einvalidParams_ne_sok
  · next hok1 =>
    split at hports
    · exact absurd hports einvalidParams_ne_sok
    · next hok2 =>
      rw [if_neg hok1,if_neg hok2]
      rfl

/-- A port is in MAC-only mode when some virtual port is that port. -/
theorem isMacOnlyPort_configured :
    isMacOnlyPort (configured cfg portCfg) p = true ↔ MacOnly cfg p := by
  rw [isMacOnlyPort_iff]
  unfold configured MacOnly
  rw [isSet_macOnly,isSet_zero]
  simp

/-- The other enabled ports are in switch mode. -/
theorem isSet_switch :
    isSet (configured cfg portCfg).switchPortMask p.val = true ↔
      p ∈ cfg.ports ∧ ¬ MacOnly cfg p := by
  have hp : p.val < 32 := by omega
  have hmode : isMacOnlyPort (configured cfg portCfg) p = true ↔ MacOnly cfg p :=
    isMacOnlyPort_configured
  rw [← hmode,isMacOnlyPort_iff]
  unfold configured
  dsimp only
  rw [isSet_and,Bool.and_eq_true,isSet_enabled,isSet_zero,isSet_eq_getLsbD (~~~_),
    BitVec.getLsbD_not,← isSet_eq_getLsbD]
  simp [hp]

/-- Members of a mask of ports, as the ALE numbers them. -/
theorem isSet_members :
    isSet (m <<< 1 ||| hostPortMask) (q.val + 1) = isSet m q.val := by
  have hq : q.val + 1 < 32 := by omega
  have hhost : isSet hostPortMask (q.val + 1) = false := by
    rw [Bool.eq_false_iff]
    intro h
    exact absurd (VlanIsolation.isSet_hostPortMask.mp h) (Nat.succ_ne_zero _)
  rw [isSet_or,hhost,Bool.or_false,isSet_shiftLeft_one]
  simp [hq]

theorem isSet_members_host : isSet (m <<< 1 ||| hostPortMask) 0 = true := by
  rw [isSet_or,VlanIsolation.isSet_hostPortMask.mpr rfl,Bool.or_true]

/-- The ALE configuration of an enabled port is that of its mode. -/
theorem portCfg_setPortMode (p : MacPort) :
    (setPortMode o allPorts).portCfg (p.val + 1) =
      if p ∈ o.ports.map EthFwPort.macPort then modeCfg o p else o.portCfg (p.val + 1) := by
  have hinj : Function.Injective fun p : MacPort => p.val + 1 := fun p q h =>
    Fin.ext (Nat.succ.inj h)
  have hloop := CArrays.foldl_update_key hinj (modeCfg o) (o.ports.map EthFwPort.macPort)
    o.portCfg p
  rw [List.foldl_map] at hloop
  unfold setPortMode
  dsimp only
  rw [Function.update_of_ne (Nat.succ_ne_zero _)]
  exact hloop

/-- The ports that have entries are the enabled ports. -/
theorem macPorts_configured :
    (configured cfg portCfg).ports.map EthFwPort.macPort = cfg.ports := by
  unfold configured
  simp [Function.comp_def]

theorem macPorts_setPortVlan :
    (setPortVlan (configured cfg portCfg)).ports.map EthFwPort.macPort = cfg.ports := by
  unfold setPortVlan
  dsimp only
  rw [macPorts_setPortVIDs,macPorts_configured]

/-- The configuration of an enabled port after the set-up. -/
theorem portCfg_setup (hp : p ∈ cfg.ports) :
    (setPortMode (setPortVlan (configured cfg portCfg)) allPorts).portCfg (p.val + 1) =
      modeCfg (configured cfg portCfg) p := by
  rw [portCfg_setPortMode,macPorts_setPortVlan,if_pos hp]
  rfl

/-- The identity that an enabled port tags with. -/
theorem getMacPortConfig_setup (hp : p ∈ cfg.ports) :
    getMacPortConfig (setPortMode (setPortVlan (configured cfg portCfg)) allPorts) p =
      some ⟨p,dfltVlanId (configured cfg portCfg) p⟩ := by
  have hentry : (configured cfg portCfg).ports.find? (fun e => e.macPort = p) =
      some ⟨p,0#32⟩ := find_entries cfg.ports hp
  have hloop := find_setPortVIDs (p := p) (l := (configured cfg portCfg).ports)
    (dfltVlanId (configured cfg portCfg)) ((configured cfg portCfg).ports.map EthFwPort.macPort)
  rw [if_pos (macPorts_configured.symm ▸ hp),hentry,List.foldl_map] at hloop
  exact hloop

theorem modeCfg_of_macOnly (h : MacOnly cfg p) :
    (modeCfg (configured cfg portCfg) p).vlanMemberList =
      (configured cfg portCfg).macOnlyPortMask <<< 1 ||| hostPortMask := by
  unfold modeCfg
  rw [if_pos (isMacOnlyPort_configured.mpr h)]

theorem modeCfg_of_switch (h : ¬ MacOnly cfg p) :
    (modeCfg (configured cfg portCfg) p).vlanMemberList =
      (configured cfg portCfg).switchPortMask <<< 1 ||| hostPortMask := by
  unfold modeCfg
  rw [if_neg (mt isMacOnlyPort_configured.mp h)]

theorem vlanId_modeCfg :
    (modeCfg (configured cfg portCfg) p).vlanId = dfltVlanId (configured cfg portCfg) p := by
  unfold modeCfg dfltVlanId
  split_ifs <;> rfl

/-- Members of the list of an enabled port. -/
theorem members_iff (hq : q ∈ cfg.ports) :
    isSet (modeCfg (configured cfg portCfg) p).vlanMemberList (q.val + 1) = true ↔
      (MacOnly cfg p ↔ MacOnly cfg q) := by
  by_cases hp : MacOnly cfg p
  · rw [modeCfg_of_macOnly hp,isSet_members,← isMacOnlyPort_iff,isMacOnlyPort_configured]
    exact (iff_true_left hp).symm
  · rw [modeCfg_of_switch hp,isSet_members,isSet_switch,iff_false_left hp]
    exact and_iff_right hq

theorem dfltVlanId_of_macOnly (h : MacOnly cfg p) :
    dfltVlanId (configured cfg portCfg) p = cfg.dfltVlanIdMacOnlyPorts :=
  if_pos (isMacOnlyPort_configured.mpr h)

theorem dfltVlanId_of_switch (h : ¬ MacOnly cfg p) :
    dfltVlanId (configured cfg portCfg) p = cfg.dfltVlanIdSwitchPorts :=
  if_neg (mt isMacOnlyPort_configured.mp h)

/-- The default VLANs tell the modes apart. -/
theorem dfltVlanId_eq_iff (h : cfg.dfltVlanIdMacOnlyPorts ≠ cfg.dfltVlanIdSwitchPorts) :
    dfltVlanId (configured cfg portCfg) p = dfltVlanId (configured cfg portCfg) q ↔
      (MacOnly cfg p ↔ MacOnly cfg q) := by
  by_cases hp : MacOnly cfg p
  · rw [dfltVlanId_of_macOnly hp,iff_true_left hp]
    by_cases hq : MacOnly cfg q
    · simp [dfltVlanId_of_macOnly hq,hq]
    · simp [dfltVlanId_of_switch hq,hq,h]
  · rw [dfltVlanId_of_switch hp,iff_false_left hp]
    by_cases hq : MacOnly cfg q
    · simp [dfltVlanId_of_macOnly hq,hq,h.symm]
    · simp [dfltVlanId_of_switch hq,hq]

/-- Whatever ports and virtual ports a configuration names, once it is
accepted the enabled ports are kept apart by their modes, and the masks
that the VLAN module receives are split as it needs exactly when the default
masks name switch ports. -/
theorem ports_separated (h : (setupPorts cfg lim allPorts portCfg).1 = sok) :
    Separated cfg (setupPorts cfg lim allPorts portCfg).2 ∧
      (VlanIsolation.PortsSplit (setupVlan cfg (setupPorts cfg lim allPorts portCfg).2) ↔
        Within cfg.defaultPortMask
          (hostPortMask ||| (setupPorts cfg lim allPorts portCfg).2.switchPortMask <<< 1) ∧
        Within cfg.defaultVirtPortMask VlanIsolation.virtSwitchPortMask) := by
  have haccepted : Accepted cfg lim := setupPorts_ok_iff.mp h
  rw [setupPorts_eq haccepted]
  have hmodes : (configured cfg portCfg).switchPortMask &&&
      (configured cfg portCfg).macOnlyPortMask = 0#32 := by
    refine eq_zero_iff.mpr fun k => ?_
    unfold configured
    rw [isSet_and,isSet_and,isSet_eq_getLsbD (~~~_),BitVec.getLsbD_not,← isSet_eq_getLsbD]
    cases isSet (cfg.virtPortCfg.foldl addVirtPort 0#32) k <;> simp
  constructor
  · constructor
    · exact hmodes
    · intro p hp q hq
      rw [portCfg_setup hp]
      exact members_iff hq
    · intro p hp q hq
      rw [portCfg_setup hp,portCfg_setup hq,vlanId_modeCfg,vlanId_modeCfg]
      exact dfltVlanId_eq_iff haccepted.vlans
    · intro p hp
      rw [portCfg_setup hp]
      by_cases hmode : MacOnly cfg p
      · rw [modeCfg_of_macOnly hmode,isSet_members_host]
      · rw [modeCfg_of_switch hmode,isSet_members_host]
    · intro p hp
      rw [portCfg_setup hp]
      unfold modeCfg
      split_ifs <;> rfl
    · intro p hp
      rw [portCfg_setup hp]
      constructor
      · intro hmode
        unfold modeCfg
        rw [if_pos (isMacOnlyPort_configured.mpr hmode)]
      · intro hmode
        unfold modeCfg
        rw [if_neg (mt isMacOnlyPort_configured.mp hmode)]
    · intro p hp
      have hmac : isMacOnlyPort (configured cfg portCfg) p = true ↔ MacOnly cfg p :=
        isMacOnlyPort_configured
      rw [portCfg_setup hp,← hmac]
      unfold modeCfg
      split_ifs with hmode
      · simp [hmode]
      · simp [hmode]
    · intro p hp
      rw [portCfg_setup hp,vlanId_modeCfg]
      exact getMacPortConfig_setup hp
    · intro p hp
      rw [portCfg_setPortMode,macPorts_setPortVlan,if_neg hp]
      have hle : p.val + 1 ≤ 8 := p.isLt
      exact congrArg AlePortCfg.vlanId (if_pos hle)
  · constructor
    · intro hsplit
      exact ⟨hsplit.defaultPorts,hsplit.defaultVirtPorts⟩
    · intro ⟨hports,hvirt⟩
      exact ⟨hmodes,hports,hvirt⟩

/-- Three ports, the second of them MAC-only by two virtual ports. -/
def threePorts : EthFwConfig where
  setPortCfg := true
  ports := (List.finRange 8).take 3
  virtPortCfg := [2#32,25#32,2#32]
  dfltVlanIdMacOnlyPorts := 0#32
  dfltVlanIdSwitchPorts := 3#32
  vlanCfg := []
  defaultPortMask := 0x0B#32
  defaultVirtPortMask := 0x02000000#32
  dVlanSwtFwdEn := false

theorem ports_separated_three :
    (setupPorts threePorts ⟨8,4⟩ 0x1FF#32 fun _ => ⟨false,false,0#32,0#32,0#32,0#32,0#32⟩).1 =
      sok ∧
    Separated threePorts (setupPorts threePorts ⟨8,4⟩ 0x1FF#32
      fun _ => ⟨false,false,0#32,0#32,0#32,0#32,0#32⟩).2 :=
  ⟨by decide,(ports_separated (by decide)).1⟩

end EthernetFirmware.PortModes
