import Mathlib.Data.List.TakeWhile
import EthernetFirmware.VepaTable

/-!
# Multicast filter

The server's multicast tables: reserved addresses, shared addresses with
one reference count each, and exclusive addresses owned by one virtual
port. A request adds an address to a client's filter or deletes it. The
first add of a shared address programs it in the ALE and the last delete
removes it; in builds with VEPA support the address has a policer as well,
and the VEPA table remembers which ports need it on which VLAN. Status
codes of the ioctls are inputs; a failing ioctl leaves the ALE alone.
-/

namespace EthernetFirmware.McastFilter

open Function BitMasks SlotTables RemoteConfig

/-- `ETHFW_SHARED_MCAST_LIST_LEN`. -/
def sharedMcastListLen : ℕ := 8

/-- `ETHFW_RSVD_MCAST_LIST_LEN`. -/
def rsvdMcastListLen : ℕ := 4

/-- `ETHFW_EXCLUSIVE_MCAST_LIST_LEN`. -/
def exclusiveMcastListLen : ℕ := 32

/-- `ETHREMOTECFG_ETHSWITCH_VLAN_USE_DFLT`. -/
def vlanUseDflt : U16 := 0xFFFF#16

/-- `CPSWPROXY_CLIENT_PRIMARY_REL_FLOW_IDX`. -/
def primaryRelFlowIdx : U32 := 0#32

/-- `EthFwMcast_SharedMcastInfo`. -/
structure SharedMcastInfo where
  /-- Multicast address. -/
  macAddr : MacAddr
  /-- Hardware port mask. -/
  portMask : U32
  /-- Virtual port mask. -/
  virtPortMask : U32
  /-- Reference count. -/
  refCnt : U32

/-- `EthFwMcast_RsvdMcast`. -/
structure RsvdMcast where
  /-- Multicast address. -/
  macAddr : MacAddr
  /-- VLAN identity. -/
  vlanId : U16
  /-- Hardware port mask. -/
  portMask : U32

/-- `EthFwMcast_ExclusiveMcastInfo`. -/
structure ExclusiveMcastInfo where
  /-- Multicast address. -/
  macAddr : MacAddr
  /-- Virtual port that owns the address. -/
  virtPort : U32
  /-- Reference count. -/
  refCnt : U32
  /-- The entry is free. -/
  isFree : Bool

/-- `EthFwMcast_McastCfg`. -/
structure McastCfg where
  /-- Multicast address. -/
  macAddr : MacAddr
  /-- Hardware port mask. -/
  portMask : U32
  /-- Virtual port mask. -/
  virtPortMask : U32

/-- `EthFwMcast_Obj` with the hardware and the VEPA object it acts on. -/
structure McastObj where
  /-- Shared multicast table. -/
  sharedMcast : Fin sharedMcastListLen → SharedMcastInfo
  /-- Its length. -/
  sharedLen : ℕ
  /-- Reserved multicast table. -/
  rsvdMcast : Fin rsvdMcastListLen → RsvdMcast
  /-- Its length. -/
  rsvdLen : ℕ
  /-- Exclusive multicast table. -/
  exclusiveMcast : Fin exclusiveMcastListLen → ExclusiveMcastInfo
  /-- Switch port mask. -/
  switchPortMask : U32
  /-- MAC-only port mask. -/
  macOnlyPortMask : U32
  /-- Port masks of the multicast entries of the ALE that name no VLAN. -/
  ale : MacAddr → Option U32
  /-- The VEPA object, in builds with VEPA support. -/
  vepa : Option VepaTable.VepaObj

/-- Status codes of the ioctls of an add. -/
structure AddOutcomes where
  /-- `CPSW_ALE_IOCTL_LOOKUP_MCAST`. -/
  lookupMcast : Status
  /-- `CPSW_ALE_IOCTL_ADD_MCAST`. -/
  addMcast : Status
  /-- The ioctl that sets the policer. -/
  setPolicer : Status

/-- Status codes of the ioctls of a delete. -/
structure DelOutcomes where
  /-- `CPSW_ALE_IOCTL_DEL_POLICER`. -/
  delPolicer : Status
  /-- `CPSW_ALE_IOCTL_REMOVE_ADDR`. -/
  removeAddr : Status

/-- The entry saved for a shared address. -/
def sharedEntry (c : McastCfg) : SharedMcastInfo := ⟨c.macAddr,c.portMask,c.virtPortMask,0#32⟩

/-- `EthFwMcast_getSharedMcastCfg`: entries are saved up to the first
address that is no multicast address, which empties the table. -/
def getSharedMcastCfg (o : McastObj) (cfg : List McastCfg) : Status × McastObj :=
  if sharedMcastListLen < cfg.length then (einvalidParams,{ o with sharedLen := 0 })
  else
    let saved := cfg.takeWhile fun c => c.macAddr.isMcast
    let o := { o with sharedMcast := fun i =>
      (saved[i.val]?).elim (o.sharedMcast i) sharedEntry }
    if saved.length = cfg.length then (sok,{ o with sharedLen := saved.length })
    else (einvalidParams,{ o with sharedLen := 0 })

/-- `EthFwMcast_getRsvdMcastCfg`. -/
def getRsvdMcastCfg (o : McastObj) (cfg : List RsvdMcast) : Status × McastObj :=
  if rsvdMcastListLen < cfg.length then (einvalidParams,{ o with rsvdLen := 0 })
  else
    let saved := cfg.takeWhile fun c => c.macAddr.isMcast
    let o := { o with rsvdMcast := fun i => (saved[i.val]?).elim (o.rsvdMcast i) id }
    if saved.length = cfg.length then (sok,{ o with rsvdLen := saved.length })
    else (einvalidParams,{ o with rsvdLen := 0 })

/-- The object after its memory is cleared. -/
def zeroed (ale : MacAddr → Option U32) (vepa : Option VepaTable.VepaObj) : McastObj where
  sharedMcast := fun _ => ⟨VepaTable.zeroAddr,0#32,0#32,0#32⟩
  sharedLen := 0
  rsvdMcast := fun _ => ⟨VepaTable.zeroAddr,0#16,0#32⟩
  rsvdLen := 0
  exclusiveMcast := fun _ => ⟨VepaTable.zeroAddr,0#32,0#32,false⟩
  switchPortMask := 0#32
  macOnlyPortMask := 0#32
  ale := ale
  vepa := vepa

/-- `EthFwMcast_init`. -/
def init (o : McastObj) (shared : List McastCfg) (rsvd : List RsvdMcast)
    (switchPortMask macOnlyPortMask : U32) : Status × McastObj :=
  let r := getSharedMcastCfg (zeroed o.ale o.vepa) shared
  let r := if r.1 = sok then getRsvdMcastCfg r.2 rsvd else r
  let o :=
    if r.1 = sok then
      { r.2 with switchPortMask := switchPortMask, macOnlyPortMask := macOnlyPortMask }
    else r.2
  (r.1,{ o with exclusiveMcast := fun i => { o.exclusiveMcast i with isFree := true } })

/-- `EthFwMcast_isRsvdMcast`. -/
def isRsvdMcast (o : McastObj) (macAddr : MacAddr) (vlanId : U16) : Bool :=
  (firstSlot (fun e => decide (e.1.val < o.rsvdLen) && decide (e.2.vlanId = vlanId) &&
    decide (e.2.macAddr = macAddr)) fun i => (i,o.rsvdMcast i)).isSome

/-- `EthFwMcast_getSharedMcastInfo`; the VLAN does not matter. -/
def getSharedMcastInfo (o : McastObj) (macAddr : MacAddr) : Option (Fin sharedMcastListLen) :=
  firstSlot (fun e => decide (e.1.val < o.sharedLen) && decide (e.2.macAddr = macAddr))
    fun i => (i,o.sharedMcast i)

/-- `EthFwMcast_getExclusiveMcastInfo`. -/
def getExclusiveMcastInfo (o : McastObj) (macAddr : MacAddr) :
    Option (Fin exclusiveMcastListLen) :=
  firstSlot (fun e => !e.isFree && decide (e.macAddr = macAddr)) o.exclusiveMcast

/-- The ioctl that adds a multicast entry to the ALE. -/
def addMcastEntry (o : McastObj) (ioctl : Status) (macAddr : MacAddr) (portMask : U32) :
    Status × McastObj :=
  if ioctl = sok then (sok,{ o with ale := update o.ale macAddr (some portMask) }) else (ioctl,o)

/-- The ioctls that remove an address from the ALE. -/
def removeEntry (o : McastObj) (ioctl : Status) (macAddr : MacAddr) : Status × McastObj :=
  if ioctl = sok then (sok,{ o with ale := update o.ale macAddr none }) else (ioctl,o)

/-- Set the reference count of a shared entry. -/
def setRefCnt (o : McastObj) (i : Fin sharedMcastListLen) (refCnt : U32) : McastObj :=
  { o with sharedMcast := update o.sharedMcast i { o.sharedMcast i with refCnt := refCnt } }

/-- `EthFwMcast_filterAddMacShared`. -/
def filterAddMacShared (o : McastObj) (i : Fin sharedMcastListLen) (macAddr : MacAddr)
    (x : AddOutcomes) : Status × McastObj :=
  let r :=
    if (o.sharedMcast i).refCnt = 0#32 then
      let r := addMcastEntry o x.addMcast macAddr (o.sharedMcast i).portMask
      match o.vepa with
      | some vepa => if r.1 = sok then (VepaTable.addMcastPolicer vepa x.setPolicer,r.2) else r
      | none => r
    else (sok,o)
  if r.1 = sok then (sok,setRefCnt r.2 i ((o.sharedMcast i).refCnt + 1#32)) else r

/-- `EthFwMcast_filterDelMacShared`. -/
def filterDelMacShared (o : McastObj) (i : Fin sharedMcastListLen) (macAddr : MacAddr)
    (x : DelOutcomes) : Status × McastObj :=
  let r :=
    if (o.sharedMcast i).refCnt = 1#32 then
      let policer := if o.vepa.isSome then VepaTable.delMcastPolicer x.delPolicer else sok
      if policer = sok then removeEntry o x.removeAddr macAddr else (policer,o)
    else if (o.sharedMcast i).refCnt = 0#32 then (efail,o)
    else (sok,o)
  if r.1 = sok then (sok,setRefCnt r.2 i ((o.sharedMcast i).refCnt - 1#32)) else r

/-- `EthFwMcast_filterAddMacExcl`; a slot taken is not given back when an
ioctl after it fails. -/
def filterAddMacExcl (o : McastObj) (virtPort : PortId) (macAddr : MacAddr) (x : AddOutcomes) :
    Status × McastObj :=
  if x.lookupMcast = sok then (ebusy,o)
  else if x.lookupMcast ≠ enotfound then (x.lookupMcast,o)
  else
    match firstSlot ExclusiveMcastInfo.isFree o.exclusiveMcast with
    | none => (ealloc,o)
    | some i =>
      let taken : ExclusiveMcastInfo := ⟨macAddr,virtPort.val,1#32,false⟩
      let o := { o with exclusiveMcast := update o.exclusiveMcast i taken }
      let portMask : U32 :=
        if isMacPort virtPort.val then bit ((getMacPort virtPort.val).toNat + 1)
        else o.switchPortMask.shiftLeft 1
      let r := addMcastEntry o x.addMcast macAddr (bit 0 ||| portMask)
      if r.1 = sok then (x.setPolicer,r.2) else r

/-- `EthFwMcast_filterDelMacExcl`: deleting the classifier deletes the ALE
entry as well. -/
def filterDelMacExcl (o : McastObj) (macAddr : MacAddr) (x : DelOutcomes) : Status × McastObj :=
  removeEntry o x.delPolicer macAddr

/-- The VEPA table learns that a port needs the address. -/
def vepaAdd (o : McastObj) (macAddr : MacAddr) (vlanId : U16) (virtPort : PortId) :
    Status × McastObj :=
  match o.vepa with
  | some vepa =>
    let r := VepaTable.addAddr vepa.remoteCoreVepaTable macAddr vlanId virtPort
    (r.1,{ o with vepa := some { vepa with remoteCoreVepaTable := r.2 } })
  | none => (sok,o)

/-- The VEPA table forgets that a port needs the address. -/
def vepaDel (o : McastObj) (macAddr : MacAddr) (vlanId : U16) (virtPort : PortId) :
    Status × McastObj :=
  match o.vepa with
  | some vepa =>
    let r := VepaTable.delAddr vepa.remoteCoreVepaTable macAddr vlanId virtPort
    (r.1,{ o with vepa := some { vepa with remoteCoreVepaTable := r.2 } })
  | none => (sok,o)

/-- Set the reference count of an exclusive entry. -/
def setExclusive (o : McastObj) (i : Fin exclusiveMcastListLen)
    (f : ExclusiveMcastInfo → ExclusiveMcastInfo) : McastObj :=
  { o with exclusiveMcast := update o.exclusiveMcast i (f (o.exclusiveMcast i)) }

/-- `EthFwMcast_filterAddMac`. -/
def filterAddMac (o : McastObj) (virtPort : PortId) (macAddr : MacAddr) (vlanId : U16)
    (x : AddOutcomes) : Status × McastObj :=
  if isRsvdMcast o macAddr vlanId then (ebadArgs,o)
  else
    match getSharedMcastInfo o macAddr with
    | some i =>
      let r := filterAddMacShared o i macAddr x
      if r.1 = sok then vepaAdd r.2 macAddr vlanId virtPort else r
    | none =>
      match getExclusiveMcastInfo o macAddr with
      | some i =>
        if (o.exclusiveMcast i).virtPort = virtPort.val then
          (sok,setExclusive o i fun e => { e with refCnt := e.refCnt + 1#32 })
        else (efail,o)
      | none => filterAddMacExcl o virtPort macAddr x

/-- `EthFwMcast_filterDelMac`. -/
def filterDelMac (o : McastObj) (virtPort : PortId) (macAddr : MacAddr) (vlanId : U16)
    (x : DelOutcomes) : Status × McastObj :=
  if isRsvdMcast o macAddr vlanId then (ebadArgs,o)
  else
    match getSharedMcastInfo o macAddr with
    | some i =>
      let r := vepaDel o (o.sharedMcast i).macAddr vlanId virtPort
      if r.1 = sok then filterDelMacShared r.2 i macAddr x else r
    | none =>
      match getExclusiveMcastInfo o macAddr with
      | some i =>
        if (o.exclusiveMcast i).virtPort = virtPort.val then
          if 1#32 < (o.exclusiveMcast i).refCnt then
            (sok,setExclusive o i fun e => { e with refCnt := e.refCnt - 1#32 })
          else if (o.exclusiveMcast i).refCnt = 1#32 then
            let r := filterDelMacExcl o macAddr x
            if r.1 = sok then
              (sok,setExclusive r.2 i fun e => { e with isFree := true, refCnt := 0#32 })
            else (r.1,setExclusive r.2 i fun e => { e with refCnt := 1#32 })
          else (sok,o)
        else (efail,o)
      | none => (efail,o)

/-- The checks both filter handlers make before they call the filter: the
address, and whether the client has joined the VLAN it names. The second
component is the VLAN to use. -/
def requestVlan (status : Status) (macAddr : MacAddr) (vlanId : U16) (isInVlan : Bool) :
    Status × U16 :=
  let status := if macAddr.isMcast then status else ebadArgs
  if status = sok then
    if vlanId = 0#16 ∨ vlanId = vlanUseDflt then (sok,0#16)
    else if isInVlan then (sok,vlanId)
    else (ebadArgs,vlanId)
  else (status,vlanId)

/-- The check that an add is requested on the primary flow: the relative
flow index of the client's flow, with the status of finding it. -/
def flowStatus (relFlow : Status × U32) : Status :=
  if relFlow.1 = sok then
    if relFlow.2 = primaryRelFlowIdx then sok else enotSupported
  else relFlow.1

/-- `CpswProxyServer_filterAddMacHandlerCb`. -/
def filterAddMacHandlerCb (o : McastObj) (virtPort : PortId) (macAddr : MacAddr) (vlanId : U16)
    (relFlow : Status × U32) (isInVlan : Bool) (x : AddOutcomes) : Status × McastObj :=
  let r := requestVlan (flowStatus relFlow) macAddr vlanId isInVlan
  if r.1 = sok then filterAddMac o virtPort macAddr r.2 x else (r.1,o)

/-- `CpswProxyServer_filterDelMacHandlerCb`. -/
def filterDelMacHandlerCb (o : McastObj) (virtPort : PortId) (macAddr : MacAddr) (vlanId : U16)
    (isInVlan : Bool) (x : DelOutcomes) : Status × McastObj :=
  let r := requestVlan sok macAddr vlanId isInVlan
  if r.1 = sok then filterDelMac o virtPort macAddr r.2 x else (r.1,o)

variable {o : McastObj} {i j : Fin sharedMcastListLen} {p : PortId} {a b : MacAddr} {v : U16}
  {x : AddOutcomes} {y : DelOutcomes}

theorem getSharedMcastInfo_eq_some_iff : getSharedMcastInfo o a = some i ↔
    (i.val < o.sharedLen ∧ (o.sharedMcast i).macAddr = a) ∧
      ∀ j < i, ¬ (j.val < o.sharedLen ∧ (o.sharedMcast j).macAddr = a) := by
  unfold getSharedMcastInfo
  rw [firstSlot_eq_some_iff]
  simp only [Bool.and_eq_true,decide_eq_true_eq,Bool.and_eq_false_iff,decide_eq_false_iff_not,
    not_and_or]

theorem getSharedMcastInfo_eq_none_iff : getSharedMcastInfo o a = none ↔
    ∀ i, i.val < o.sharedLen → (o.sharedMcast i).macAddr ≠ a := by
  unfold getSharedMcastInfo
  rw [firstSlot_eq_none_iff]
  refine forall_congr' fun i => ?_
  by_cases h : i.val < o.sharedLen <;> simp [h]

/-- The count of a shared entry after it was set. -/
theorem setRefCnt_self {n : U32} : ((setRefCnt o i n).sharedMcast i).refCnt = n := by
  unfold setRefCnt
  dsimp only
  rw [update_self]

/-- The look-up depends on the length and the addresses alone. -/
theorem getSharedMcastInfo_congr {o' : McastObj} (hn : o'.sharedLen = o.sharedLen)
    (ha : ∀ i, (o'.sharedMcast i).macAddr = (o.sharedMcast i).macAddr) :
    getSharedMcastInfo o' a = getSharedMcastInfo o a := by
  unfold getSharedMcastInfo firstSlot
  simp only [hn,ha]

/-- Entries of different addresses are different. -/
theorem ne_of_getSharedMcastInfo (hi : getSharedMcastInfo o a = some i)
    (hj : getSharedMcastInfo o b = some j) (h : b ≠ a) : j ≠ i := by
  rintro rfl
  exact h ((getSharedMcastInfo_eq_some_iff.mp hj).1.2.symm.trans
    (getSharedMcastInfo_eq_some_iff.mp hi).1.2)

/-- The ioctls of an add of a shared address succeed where they are made. -/
def AddGoes (o : McastObj) (i : Fin sharedMcastListLen) (x : AddOutcomes) : Prop :=
  (o.sharedMcast i).refCnt = 0#32 → x.addMcast = sok ∧
    ∀ vepa, o.vepa = some vepa → VepaTable.addMcastPolicer vepa x.setPolicer = sok

/-- A delete of a shared address in use has its ioctls succeed where they
are made. -/
def DelGoes (o : McastObj) (i : Fin sharedMcastListLen) (y : DelOutcomes) : Prop :=
  (o.sharedMcast i).refCnt ≠ 0#32 ∧ ((o.sharedMcast i).refCnt = 1#32 →
    (o.vepa.isSome = true → y.delPolicer = sok) ∧ y.removeAddr = sok)

theorem addMcastEntry_ok {m : U32} : addMcastEntry o sok a m =
    (sok,{ o with ale := update o.ale a (some m) }) := if_pos rfl

theorem addMcastEntry_failed {st : Status} {m : U32} (h : st ≠ sok) :
    addMcastEntry o st a m = (st,o) := if_neg h

theorem removeEntry_ok : removeEntry o sok a = (sok,{ o with ale := update o.ale a none }) :=
  if_pos rfl

theorem removeEntry_failed {st : Status} (h : st ≠ sok) : removeEntry o st a = (st,o) :=
  if_neg h

/-- An add that goes through: one reference more, the first one programs
the address. -/
theorem filterAddMacShared_goes (h : AddGoes o i x) : filterAddMacShared o i a x =
    (sok,{ setRefCnt o i ((o.sharedMcast i).refCnt + 1#32) with
      ale := if (o.sharedMcast i).refCnt = 0#32 then
          update o.ale a (some (o.sharedMcast i).portMask)
        else o.ale }) := by
  unfold filterAddMacShared
  by_cases hz : (o.sharedMcast i).refCnt = 0#32
  · obtain ⟨hadd,hpol⟩ := h hz
    rw [if_pos hz,if_pos hz,hadd,addMcastEntry_ok]
    cases hv : o.vepa with
    | none => simp [setRefCnt,hv]
    | some vepa => simp [setRefCnt,hv,hpol vepa hv]
  · rw [if_neg hz,if_neg hz]
    rfl

/-- An add that does not go through leaves no reference, but the address it
programmed stays. -/
theorem filterAddMacShared_fails (h : ¬ AddGoes o i x) :
    (filterAddMacShared o i a x).1 ≠ sok ∧ (filterAddMacShared o i a x).2 =
      { o with ale := if x.addMcast = sok then
          update o.ale a (some (o.sharedMcast i).portMask)
        else o.ale } := by
  obtain ⟨hz,hfail⟩ := Classical.not_imp.mp h
  unfold filterAddMacShared
  rw [if_pos hz]
  by_cases hadd : x.addMcast = sok
  · rw [if_pos hadd,hadd,addMcastEntry_ok]
    cases hv : o.vepa with
    | none => exact absurd ⟨hadd,by simp [hv]⟩ hfail
    | some vepa =>
      have hpol : VepaTable.addMcastPolicer vepa x.setPolicer ≠ sok := by
        intro hpol
        refine hfail ⟨hadd,fun vepa' hv' => ?_⟩
        obtain rfl : vepa = vepa' := Option.some.inj (hv.symm.trans hv')
        exact hpol
      simp [hpol]
  · rw [addMcastEntry_failed hadd]
    obtain ⟨shared,sharedLen,rsvd,rsvdLen,exclusive,switchMask,macMask,ale,vepa⟩ := o
    cases vepa <;> simp [hadd]

/-- A delete that goes through: one reference less, the last one removes
the address. -/
theorem filterDelMacShared_goes (h : DelGoes o i y) : filterDelMacShared o i a y =
    (sok,{ setRefCnt o i ((o.sharedMcast i).refCnt - 1#32) with
      ale := if (o.sharedMcast i).refCnt = 1#32 then update o.ale a none else o.ale }) := by
  obtain ⟨hnz,hone⟩ := h
  unfold filterDelMacShared
  by_cases h1 : (o.sharedMcast i).refCnt = 1#32
  · obtain ⟨hpol,hrem⟩ := hone h1
    rw [if_pos h1,if_pos h1,hrem,removeEntry_ok]
    by_cases hv : o.vepa.isSome = true
    · simp [setRefCnt,hv,hpol hv,VepaTable.delMcastPolicer]
    · simp [setRefCnt,hv]
  · rw [if_neg h1,if_neg h1,if_neg hnz]
    rfl

/-- A delete that does not go through changes nothing. -/
theorem filterDelMacShared_fails (h : ¬ DelGoes o i y) :
    (filterDelMacShared o i a y).1 ≠ sok ∧ (filterDelMacShared o i a y).2 = o := by
  unfold filterDelMacShared
  by_cases hz : (o.sharedMcast i).refCnt = 0#32
  · simp [hz]
  · by_cases h1 : (o.sharedMcast i).refCnt = 1#32
    · rw [if_pos h1]
      by_cases hpol : (if o.vepa.isSome then VepaTable.delMcastPolicer y.delPolicer else sok) = sok
      · have hrem : y.removeAddr ≠ sok := by
          intro hrem
          refine h ⟨hz,fun _ => ⟨fun hv => ?_,hrem⟩⟩
          rw [if_pos hv] at hpol
          exact hpol
        simp [hpol,removeEntry_failed hrem,hrem]
      · simp [hpol]
    · exact absurd ⟨hz,fun hc => absurd hc h1⟩ h

/-- The VEPA table can forget the address: in VEPA builds it has an entry. -/
def VepaKnown (o : McastObj) (macAddr : MacAddr) (vlanId : U16) : Prop :=
  ∀ vepa, o.vepa = some vepa → VepaTable.Known vepa.remoteCoreVepaTable macAddr vlanId

@[simp] theorem vepaAdd_status : (vepaAdd o a v p).1 = sok := by
  unfold vepaAdd
  split
  · exact VepaTable.addAddr_status
  · rfl

theorem vepaAdd_state : ∃ vepa, (vepaAdd o a v p).2 = { o with vepa := vepa } := by
  unfold vepaAdd
  split
  · exact ⟨_,rfl⟩
  · exact ⟨o.vepa,rfl⟩

theorem vepaDel_ok_iff : (vepaDel o a v p).1 = sok ↔ VepaKnown o a v := by
  unfold vepaDel VepaKnown
  cases h : o.vepa with
  | some vepa => simp [VepaTable.delAddr_ok_iff]
  | none => simp

theorem vepaDel_state : ∃ vepa, (vepaDel o a v p).2 = { o with vepa := vepa } ∧
    vepa.isSome = o.vepa.isSome := by
  unfold vepaDel
  cases h : o.vepa with
  | some vepa => exact ⟨_,rfl,rfl⟩
  | none => exact ⟨o.vepa,rfl,by rw [h]⟩

/-- A request reaches a shared entry: the handler's checks pass, the address
is not reserved, and the entry is its own. -/
structure ReachesShared (o : McastObj) (r : Status × U16) (a : MacAddr)
    (i : Fin sharedMcastListLen) : Prop where
  /-- The checks of the handler pass. -/
  admitted : r.1 = sok
  /-- The address is not reserved on the VLAN. -/
  notRsvd : isRsvdMcast o a r.2 = false
  /-- The entry is the first one of the address. -/
  found : getSharedMcastInfo o a = some i

/-- The shared table is untouched, and so is the ALE but for one address. -/
structure SharedFrame (o o' : McastObj) (a : MacAddr) : Prop where
  /-- The entries are the same. -/
  table : o'.sharedMcast = o.sharedMcast
  /-- So is their number. -/
  len : o'.sharedLen = o.sharedLen
  /-- And every other address of the ALE. -/
  ale : ∀ b, b ≠ a → o'.ale b = o.ale b

theorem SharedFrame.refl (o : McastObj) (a : MacAddr) : SharedFrame o o a :=
  ⟨rfl,rfl,fun _ _ => rfl⟩

theorem addMcastEntry_frame (o : McastObj) (st : Status) (a : MacAddr) (m : U32) :
    SharedFrame o (addMcastEntry o st a m).2 a := by
  unfold addMcastEntry
  split
  · exact ⟨rfl,rfl,fun b hb => update_of_ne hb ..⟩
  · exact SharedFrame.refl o a

theorem removeEntry_frame (o : McastObj) (st : Status) (a : MacAddr) :
    SharedFrame o (removeEntry o st a).2 a := by
  unfold removeEntry
  split
  · exact ⟨rfl,rfl,fun b hb => update_of_ne hb ..⟩
  · exact SharedFrame.refl o a

/-- A status that replaces another changes no state. -/
theorem SharedFrame.withStatus {r : Status × McastObj} {c : Prop} [Decidable c] {st : Status}
    (h : SharedFrame o r.2 a) : SharedFrame o (if c then (st,r.2) else r).2 a := by
  split <;> exact h

theorem filterAddMacExcl_frame : SharedFrame o (filterAddMacExcl o p a x).2 a := by
  unfold filterAddMacExcl
  split
  · exact SharedFrame.refl o a
  · split
    · exact SharedFrame.refl o a
    · split
      · exact SharedFrame.refl o a
      · apply SharedFrame.withStatus
        exact ⟨(addMcastEntry_frame ..).table,(addMcastEntry_frame ..).len,
          (addMcastEntry_frame ..).ale⟩

/-- An add of an address that is not shared leaves the shared ones alone. -/
theorem filterAddMac_frame (h : getSharedMcastInfo o a = none) :
    SharedFrame o (filterAddMac o p a v x).2 a := by
  unfold filterAddMac
  rw [h]
  split
  · exact SharedFrame.refl o a
  · dsimp only
    split
    · split
      · exact ⟨rfl,rfl,fun _ _ => rfl⟩
      · exact SharedFrame.refl o a
    · exact filterAddMacExcl_frame

/-- A delete of an address that is not shared leaves the shared ones alone. -/
theorem filterDelMac_frame (h : getSharedMcastInfo o a = none) :
    SharedFrame o (filterDelMac o p a v y).2 a := by
  unfold filterDelMac
  rw [h]
  split
  · exact SharedFrame.refl o a
  · dsimp only
    split
    · split
      · split
        · exact ⟨rfl,rfl,fun _ _ => rfl⟩
        · split
          · have hf : SharedFrame o (filterDelMacExcl o a y).2 a := removeEntry_frame ..
            split <;> exact ⟨hf.table,hf.len,hf.ale⟩
          · exact SharedFrame.refl o a
      · exact SharedFrame.refl o a
    · exact SharedFrame.refl o a

/-- An add of a shared address that goes through. -/
theorem filterAddMac_goes (hr : isRsvdMcast o a v = false) (hi : getSharedMcastInfo o a = some i)
    (h : AddGoes o i x) : ∃ vepa, filterAddMac o p a v x =
      (sok,{ setRefCnt o i ((o.sharedMcast i).refCnt + 1#32) with
        ale := if (o.sharedMcast i).refCnt = 0#32 then
            update o.ale a (some (o.sharedMcast i).portMask)
          else o.ale
        vepa := vepa }) := by
  unfold filterAddMac
  rw [hr,hi]
  dsimp only
  rw [filterAddMacShared_goes h,if_neg (by decide),if_pos rfl]
  obtain ⟨vepa,hv⟩ := vepaAdd_state (o := { setRefCnt o i ((o.sharedMcast i).refCnt + 1#32) with
    ale := if (o.sharedMcast i).refCnt = 0#32 then
        update o.ale a (some (o.sharedMcast i).portMask)
      else o.ale }) (a := a) (v := v) (p := p)
  exact ⟨vepa,Prod.ext vepaAdd_status hv⟩

/-- An add of a shared address that does not go through. -/
theorem filterAddMac_fails (hr : isRsvdMcast o a v = false)
    (hi : getSharedMcastInfo o a = some i) (h : ¬ AddGoes o i x) :
    (filterAddMac o p a v x).1 ≠ sok ∧ (filterAddMac o p a v x).2 =
      { o with ale := if x.addMcast = sok then
          update o.ale a (some (o.sharedMcast i).portMask)
        else o.ale } := by
  obtain ⟨hst,hstate⟩ := filterAddMacShared_fails (a := a) h
  unfold filterAddMac
  rw [hr,hi]
  dsimp only
  rw [if_neg (by decide),if_neg hst]
  exact ⟨hst,hstate⟩

/-- A delete of a shared address that goes through. -/
theorem filterDelMac_goes (hr : isRsvdMcast o a v = false) (hi : getSharedMcastInfo o a = some i)
    (hk : VepaKnown o a v) (h : DelGoes o i y) : ∃ vepa, filterDelMac o p a v y =
      (sok,{ setRefCnt o i ((o.sharedMcast i).refCnt - 1#32) with
        ale := if (o.sharedMcast i).refCnt = 1#32 then update o.ale a none else o.ale
        vepa := vepa }) := by
  have hmac := (getSharedMcastInfo_eq_some_iff.mp hi).1.2
  obtain ⟨vepa,hv,hsome⟩ := vepaDel_state (o := o) (a := a) (v := v) (p := p)
  unfold filterDelMac
  rw [hr,hi]
  dsimp only
  rw [hmac,if_neg (by decide),if_pos (vepaDel_ok_iff.mpr hk),hv]
  have hgoes : DelGoes { o with vepa := vepa } i y := by
    refine ⟨h.1,fun h1 => ⟨fun hs => (h.2 h1).1 ?_,(h.2 h1).2⟩⟩
    rw [← hsome]
    exact hs
  exact ⟨vepa,filterDelMacShared_goes hgoes⟩

/-- A delete of a shared address that does not go through changes the VEPA
table at most. -/
theorem filterDelMac_fails (hr : isRsvdMcast o a v = false)
    (hi : getSharedMcastInfo o a = some i) (h : ¬ (VepaKnown o a v ∧ DelGoes o i y)) :
    (filterDelMac o p a v y).1 ≠ sok ∧
      ∃ vepa, (filterDelMac o p a v y).2 = { o with vepa := vepa } := by
  have hmac := (getSharedMcastInfo_eq_some_iff.mp hi).1.2
  obtain ⟨vepa,hv,hsome⟩ := vepaDel_state (o := o) (a := a) (v := v) (p := p)
  unfold filterDelMac
  rw [hr,hi]
  dsimp only
  rw [hmac,if_neg (by decide)]
  by_cases hk : VepaKnown o a v
  · have hgoes : ¬ DelGoes { o with vepa := vepa } i y := by
      intro hg
      refine h ⟨hk,hg.1,fun h1 => ⟨fun hs => (hg.2 h1).1 ?_,(hg.2 h1).2⟩⟩
      rw [← hsome] at hs
      exact hs
    obtain ⟨hst,hstate⟩ := filterDelMacShared_fails (a := a) hgoes
    rw [if_pos (vepaDel_ok_iff.mpr hk),hv]
    exact ⟨hst,vepa,hstate⟩
  · rw [if_neg (fun hok => hk (vepaDel_ok_iff.mp hok))]
    exact ⟨fun hok => hk (vepaDel_ok_iff.mp hok),vepa,hv⟩

theorem filterAddMac_reserved (h : isRsvdMcast o a v = true) :
    filterAddMac o p a v x = (ebadArgs,o) := if_pos h

theorem filterDelMac_reserved (h : isRsvdMcast o a v = true) :
    filterDelMac o p a v y = (ebadArgs,o) := if_pos h

/-- A shared configuration that initialisation accepts. -/
def AcceptedShared (shared : List McastCfg) : Prop :=
  shared.length ≤ sharedMcastListLen ∧ ∀ c ∈ shared, c.macAddr.isMcast = true

/-- An accepted shared configuration is saved whole. -/
theorem getSharedMcastCfg_accepted {shared : List McastCfg} (h : AcceptedShared shared) :
    getSharedMcastCfg o shared = (sok,{ o with
      sharedMcast := fun i => (shared[i.val]?).elim (o.sharedMcast i) sharedEntry
      sharedLen := shared.length }) := by
  have hall : (shared.takeWhile fun c => c.macAddr.isMcast) = shared :=
    List.takeWhile_eq_self_iff.mpr h.2
  unfold getSharedMcastCfg
  rw [if_neg (Nat.not_lt.mpr h.1),hall]
  exact if_pos rfl

/-- Any other one leaves the table empty. -/
theorem getSharedMcastCfg_rejected {shared : List McastCfg} (h : ¬ AcceptedShared shared) :
    (getSharedMcastCfg o shared).1 ≠ sok ∧ (getSharedMcastCfg o shared).2.sharedLen = 0 := by
  unfold getSharedMcastCfg
  split
  · exact ⟨einvalidParams_ne_sok,rfl⟩
  · next hlen =>
    have hshort : (shared.takeWhile fun c => c.macAddr.isMcast).length ≠ shared.length := by
      intro heq
      refine h ⟨Nat.not_lt.mp hlen,List.takeWhile_eq_self_iff.mp ?_⟩
      exact (List.takeWhile_prefix _).eq_of_length heq
    dsimp only
    rw [if_neg hshort]
    exact ⟨einvalidParams_ne_sok,rfl⟩

/-- Reading the reserved addresses leaves the shared ones and the ALE alone. -/
theorem getRsvdMcastCfg_frame (rsvd : List RsvdMcast) :
    (getRsvdMcastCfg o rsvd).2.sharedMcast = o.sharedMcast ∧
    (getRsvdMcastCfg o rsvd).2.sharedLen = o.sharedLen ∧
    (getRsvdMcastCfg o rsvd).2.ale = o.ale := by
  unfold getRsvdMcastCfg
  split
  · exact ⟨rfl,rfl,rfl⟩
  · dsimp only
    split <;> exact ⟨rfl,rfl,rfl⟩

/-- The shared addresses after initialisation with an accepted
configuration. -/
theorem init_accepted {shared : List McastCfg} (h : AcceptedShared shared) (o : McastObj)
    (rsvd : List RsvdMcast) (m n : U32) :
    (init o shared rsvd m n).2.sharedLen = shared.length ∧
    (init o shared rsvd m n).2.ale = o.ale ∧
    ∀ i, (init o shared rsvd m n).2.sharedMcast i =
      (shared[i.val]?).elim ⟨VepaTable.zeroAddr,0#32,0#32,0#32⟩ sharedEntry := by
  unfold init
  rw [getSharedMcastCfg_accepted h]
  dsimp only
  rw [if_pos rfl]
  obtain ⟨ht,hl,ha⟩ := getRsvdMcastCfg_frame (o := { zeroed o.ale o.vepa with
    sharedMcast := fun i => (shared[i.val]?).elim ((zeroed o.ale o.vepa).sharedMcast i) sharedEntry
    sharedLen := shared.length }) rsvd
  split
  · exact ⟨hl,ha,fun i => congrFun ht i⟩
  · exact ⟨hl,ha,fun i => congrFun ht i⟩

/-- After a rejected one no address is shared. -/
theorem init_rejected {shared : List McastCfg} {rsvd : List RsvdMcast} {m n : U32}
    (h : ¬ AcceptedShared shared) : (init o shared rsvd m n).2.sharedLen = 0 := by
  obtain ⟨hst,hlen⟩ := getSharedMcastCfg_rejected (o := zeroed o.ale o.vepa) h
  unfold init
  dsimp only
  rw [if_neg hst,if_neg hst]
  exact hlen

end EthernetFirmware.McastFilter
