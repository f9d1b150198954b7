import EthernetFirmware.BitMasks
import EthernetFirmware.McastOwnership

/-!
# Shared multicast addresses on the inter-core bridge

The traffic of a shared address comes to the server, which passes it on to
the client cores over a bridge. The application has a port mask for each
shared address; the callbacks of the filter set and clear the bit of the
core that added or deleted the address, and rewrite the entry of the bridge.
The mask counts nothing: the bridge serves exactly the cores with an
outstanding add while no delete leaves another add behind the same bridge
port.
-/

namespace EthernetFirmware.SharedMcastBridge

open Function BitMasks SlotTables RemoteConfig McastFilter McastOwnership GuardedRuns

variable {Core : Type*} {w : ℕ}

/-- The application's table of shared addresses, where the virtual ports are
and which bridge port leads to a core. -/
structure Setup (Core : Type*) where
  /-- `gEthApp_sharedMcastCfgTable`. -/
  sharedMcastCfgTable : List McastCfg
  /-- Core of the clients of a virtual port; one core uses a port. -/
  coreOf : PortId → Core
  /-- `gEthApp_lwipBridgePortIdMap`. -/
  lwipBridgePortIdMap : Core → ℕ

/-- The filter and the application's view of the bridge. -/
structure Server (w : ℕ) where
  /-- Filter with its books. -/
  filter : Filter
  /-- `gEthApp_bridgePortMask`. -/
  bridgePortMask : ℕ → BitVec w
  /-- Static entries of the bridge. -/
  fdb : MacAddr → Option (BitVec w)

/-- Requests to the filter, with what `bridgeif_fdb_add` returns if it is
called. -/
inductive Request where
  | add (virtPort : PortId) (macAddr : MacAddr) (vlanId : U16) (relFlow : Status × U32)
      (isInVlan : Bool) (x : AddOutcomes) (errVal : Status)
  | del (virtPort : PortId) (macAddr : MacAddr) (vlanId : U16) (isInVlan : Bool)
      (y : DelOutcomes) (errVal : Status)

/-- The request as the filter sees it. -/
def Request.event : Request → Event
  | .add virtPort macAddr vlanId relFlow isInVlan x _ =>
    .add virtPort macAddr vlanId relFlow isInVlan x
  | .del virtPort macAddr vlanId isInVlan y _ => .del virtPort macAddr vlanId isInVlan y

variable (c : Setup Core)

/-- The search for an address in the application's table. -/
def tableIndex (macAddr : MacAddr) : Option ℕ :=
  c.sharedMcastCfgTable.findIdx? fun e => decide (e.macAddr = macAddr)

/-- Bridge port of the core of a virtual port. -/
def bridgePort (virtPort : PortId) : ℕ := c.lwipBridgePortIdMap (c.coreOf virtPort)

/-- The entry of the bridge is removed and added again. -/
def fdbUpdate (s : Server w) (macAddr : MacAddr) (errVal : Status) (portMask : BitVec w) :
    MacAddr → Option (BitVec w) :=
  let fdb := update s.fdb macAddr none
  if errVal = sok then update fdb macAddr (some portMask) else fdb

/-- `EthApp_filterAddMacSharedCb`. -/
def filterAddMacSharedCb (s : Server w) (macAddr : MacAddr) (hostId : Core) (errVal : Status) :
    Server w :=
  match tableIndex c macAddr with
  | some idx =>
    let mask := setBit (s.bridgePortMask idx) (c.lwipBridgePortIdMap hostId)
    { s with
      bridgePortMask := update s.bridgePortMask idx mask
      fdb := fdbUpdate s macAddr errVal mask }
  | none => s

/-- `EthApp_filterDelMacSharedCb`: an entry without ports is not added
again. -/
def filterDelMacSharedCb (s : Server w) (macAddr : MacAddr) (hostId : Core) (errVal : Status) :
    Server w :=
  match tableIndex c macAddr with
  | some idx =>
    let mask := clearBit (s.bridgePortMask idx) (c.lwipBridgePortIdMap hostId)
    { s with
      bridgePortMask := update s.bridgePortMask idx mask
      fdb := if mask ≠ 0#w then fdbUpdate s macAddr errVal mask else update s.fdb macAddr none }
  | none => s

/-- An add gets to the callback: the handler's checks pass and
`EthFwMcast_filterAddMacShared` succeeds. -/
def addCallsBack (o : McastObj) (macAddr : MacAddr) (req : Status × U16) (x : AddOutcomes) :
    Bool :=
  decide (req.1 = sok) && !isRsvdMcast o macAddr req.2 &&
    (getSharedMcastInfo o macAddr).any fun i =>
      decide ((filterAddMacShared o i macAddr x).1 = sok)

/-- A delete gets to the callback: so does `EthFwMcast_filterDelMacShared`,
after the VEPA table. -/
def delCallsBack (o : McastObj) (virtPort : PortId) (macAddr : MacAddr) (req : Status × U16)
    (y : DelOutcomes) : Bool :=
  decide (req.1 = sok) && !isRsvdMcast o macAddr req.2 &&
    (getSharedMcastInfo o macAddr).any fun i =>
      let r := vepaDel o (o.sharedMcast i).macAddr req.2 virtPort
      decide (r.1 = sok) && decide ((filterDelMacShared r.2 i macAddr y).1 = sok)

/-- State after a request. -/
def step (s : Server w) (r : Request) : Server w :=
  let s' := { s with filter := McastOwnership.step s.filter r.event }
  match r with
  | .add virtPort macAddr vlanId relFlow isInVlan x errVal =>
    if addCallsBack s.filter.obj macAddr
        (requestVlan (flowStatus relFlow) macAddr vlanId isInVlan) x = true then
      filterAddMacSharedCb c s' macAddr (c.coreOf virtPort) errVal
    else s'
  | .del virtPort macAddr vlanId isInVlan y errVal =>
    if delCallsBack s.filter.obj virtPort macAddr
        (requestVlan sok macAddr vlanId isInVlan) y = true then
      filterDelMacSharedCb c s' macAddr (c.coreOf virtPort) errVal
    else s'

/-- The initialised filter, no ports and no entries. -/
def startUp (ale : MacAddr → Option U32) (rsvd : List RsvdMcast)
    (switchPortMask macOnlyPortMask : U32) : Server w where
  filter := McastOwnership.startUp ale none c.sharedMcastCfgTable rsvd switchPortMask
    macOnlyPortMask
  bridgePortMask := fun _ => 0#w
  fdb := fun _ => none

/-- The bridge passes a shared address on to the cores with an outstanding
add. -/
structure FansOut (s : Server w) (a : MacAddr) (i : Fin sharedMcastListLen) : Prop where
  /-- The mask has the bridge ports of the outstanding adds. -/
  ports : ∀ b, isSet (s.bridgePortMask i.val) b = true ↔
    ∃ p ∈ s.filter.adds a, bridgePort c p = b
  /-- The bridge has the mask while there is one. -/
  entry : s.fdb a = if s.filter.adds a = [] then none else some (s.bridgePortMask i.val)

/-- The bridge is right for every shared address. -/
def AllFanOut (s : Server w) : Prop :=
  ∀ a i, getSharedMcastInfo s.filter.obj a = some i → FansOut c s a i

/-- All shared addresses are counted, programmed and passed on. -/
def FanOutOk (s : Server w) : Prop := OwnershipOk s.filter ∧ AllFanOut c s

/-- The application finds a shared address where the filter does. -/
def Indexed (s : Server w) : Prop :=
  ∀ a i, getSharedMcastInfo s.filter.obj a = some i → tableIndex c a = some i.val

/-- When a request keeps the bridge right. -/
def KeepsFanOut (s : Server w) : Request → Prop
  | .add p a vlanId relFlow isInVlan x errVal => ∀ i,
    ReachesShared s.filter.obj (requestVlan (flowStatus relFlow) a vlanId isInVlan) a i →
      AddGoes s.filter.obj i x → bridgePort c p < w ∧ errVal = sok
  | .del p a vlanId isInVlan y errVal => ∀ i,
    ReachesShared s.filter.obj (requestVlan sok a vlanId isInVlan) a i →
      VepaKnown s.filter.obj a (requestVlan sok a vlanId isInVlan).2 →
      DelGoes s.filter.obj i y →
        (∀ q ∈ (s.filter.adds a).erase p, bridgePort c q ≠ bridgePort c p) ∧
          ((s.filter.adds a).erase p ≠ [] → errVal = sok)

variable {c} {o : McastObj} {f : Filter} {s s' : Server w} {i j : Fin sharedMcastListLen}
  {a b : MacAddr} {p : PortId} {v : U16} {req : Status × U16} {x : AddOutcomes} {y : DelOutcomes}

theorem filterAddMacShared_ok_iff : (filterAddMacShared o i a x).1 = sok ↔ AddGoes o i x := by
  constructor
  · intro hok
    by_contra hg
    exact (filterAddMacShared_fails hg).1 hok
  · intro hg
    rw [filterAddMacShared_goes hg]

theorem filterDelMacShared_ok_iff : (filterDelMacShared o i a y).1 = sok ↔ DelGoes o i y := by
  constructor
  · intro hok
    by_contra hg
    exact (filterDelMacShared_fails hg).1 hok
  · intro hg
    rw [filterDelMacShared_goes hg]

/-- The callback of an add happens exactly when the add goes through. -/
theorem addCallsBack_iff : addCallsBack o a req x = true ↔
    ∃ i, ReachesShared o req a i ∧ AddGoes o i x := by
  simp only [addCallsBack,Bool.and_eq_true,decide_eq_true_eq,Bool.not_eq_true',
    Option.any_eq_true,filterAddMacShared_ok_iff]
  constructor
  · rintro ⟨⟨hadm,hr⟩,i,hi,hg⟩
    exact ⟨i,⟨hadm,hr,hi⟩,hg⟩
  · rintro ⟨i,hreach,hg⟩
    exact ⟨⟨hreach.admitted,hreach.notRsvd⟩,i,hreach.found,hg⟩

/-- Whether a delete goes through does not depend on what the VEPA table
forgets. -/
theorem delGoes_vepaDel : DelGoes (vepaDel o a v p).2 i y ↔ DelGoes o i y := by
  obtain ⟨vepa,hv,hsome⟩ := vepaDel_state (o := o) (a := a) (v := v) (p := p)
  rw [hv]
  unfold DelGoes
  dsimp only
  rw [hsome]

/-- The callback of a delete happens exactly when the delete goes through. -/
theorem delCallsBack_iff : delCallsBack o p a req y = true ↔
    ∃ i, ReachesShared o req a i ∧ VepaKnown o a req.2 ∧ DelGoes o i y := by
  simp only [delCallsBack,Bool.and_eq_true,decide_eq_true_eq,Bool.not_eq_true',
    Option.any_eq_true,filterDelMacShared_ok_iff,delGoes_vepaDel,vepaDel_ok_iff]
  constructor
  · rintro ⟨⟨hadm,hr⟩,i,hi,hk,hg⟩
    rw [(getSharedMcastInfo_eq_some_iff.mp hi).1.2] at hk
    exact ⟨i,⟨hadm,hr,hi⟩,hk,hg⟩
  · rintro ⟨i,hreach,hk,hg⟩
    refine ⟨⟨hreach.admitted,hreach.notRsvd⟩,i,hreach.found,?_,hg⟩
    rw [(getSharedMcastInfo_eq_some_iff.mp hreach.found).1.2]
    exact hk

section Books

variable {vlanId : U16} {relFlow : Status × U32} {isInVlan : Bool}

/-- Counts, ALE and VEPA table do not matter for where an address is
found. -/
theorem lookup_setRefCnt {n : U32} {ale : MacAddr → Option U32} {vepa : Option VepaTable.VepaObj}
    (hi : getSharedMcastInfo o a = some i) :
    getSharedMcastInfo { setRefCnt o i n with ale := ale, vepa := vepa } b =
      getSharedMcastInfo o b := by
  refine getSharedMcastInfo_congr rfl fun j => ?_
  by_cases hj : j = i
  · subst hj
    simp [setRefCnt]
  · simp [setRefCnt,hj]

/-- An add does not change where an address is found. -/
theorem lookup_add :
    getSharedMcastInfo (filterAddMacHandlerCb o p a vlanId relFlow isInVlan x).2 b =
      getSharedMcastInfo o b := by
  unfold filterAddMacHandlerCb
  dsimp only
  generalize requestVlan (flowStatus relFlow) a vlanId isInVlan = req
  by_cases hadm : req.1 = sok
  · rw [if_pos hadm]
    cases hr : isRsvdMcast o a req.2 with
    | true => rw [filterAddMac_reserved hr]
    | false =>
      cases hi : getSharedMcastInfo o a with
      | none =>
        have hf : SharedFrame o (filterAddMac o p a req.2 x).2 a := filterAddMac_frame hi
        exact getSharedMcastInfo_congr hf.len fun i => by rw [hf.table]
      | some i =>
        by_cases hg : AddGoes o i x
        · obtain ⟨vepa,heq⟩ := filterAddMac_goes (p := p) hr hi hg
          rw [heq]
          exact lookup_setRefCnt hi
        · rw [(filterAddMac_fails (p := p) hr hi hg).2]
          rfl
  · rw [if_neg hadm]

/-- Nor does a delete. -/
theorem lookup_del :
    getSharedMcastInfo (filterDelMacHandlerCb o p a vlanId isInVlan y).2 b =
      getSharedMcastInfo o b := by
  unfold filterDelMacHandlerCb
  dsimp only
  generalize requestVlan sok a vlanId isInVlan = req
  by_cases hadm : req.1 = sok
  · rw [if_pos hadm]
    cases hr : isRsvdMcast o a req.2 with
    | true => rw [filterDelMac_reserved hr]
    | false =>
      cases hi : getSharedMcastInfo o a with
      | none =>
        have hf : SharedFrame o (filterDelMac o p a req.2 y).2 a := filterDelMac_frame hi
        exact getSharedMcastInfo_congr hf.len fun i => by rw [hf.table]
      | some i =>
        by_cases hg : VepaKnown o a req.2 ∧ DelGoes o i y
        · obtain ⟨vepa,heq⟩ := filterDelMac_goes (p := p) hr hi hg.1 hg.2
          rw [heq]
          exact lookup_setRefCnt hi
        · obtain ⟨-,vepa,heq⟩ := filterDelMac_fails (p := p) hr hi hg
          rw [heq]
          rfl
  · rw [if_neg hadm]

/-- An add that goes through is booked. -/
theorem adds_of_add_goes
    (hreach : ReachesShared f.obj (requestVlan (flowStatus relFlow) a vlanId isInVlan) a i)
    (hg : AddGoes f.obj i x) :
    (McastOwnership.step f (.add p a vlanId relFlow isInVlan x)).adds =
      update f.adds a (p :: f.adds a) := by
  obtain ⟨vepa,heq⟩ := filterAddMac_goes (p := p) hreach.notRsvd hreach.found hg
  apply if_pos
  unfold filterAddMacHandlerCb
  dsimp only
  rw [if_pos hreach.admitted,heq]

/-- A delete that goes through is booked. -/
theorem adds_of_del_goes (hreach : ReachesShared f.obj (requestVlan sok a vlanId isInVlan) a i)
    (hk : VepaKnown f.obj a (requestVlan sok a vlanId isInVlan).2) (hg : DelGoes f.obj i y) :
    (McastOwnership.step f (.del p a vlanId isInVlan y)).adds =
      update f.adds a ((f.adds a).erase p) := by
  obtain ⟨vepa,heq⟩ := filterDelMac_goes (p := p) hreach.notRsvd hreach.found hk hg
  apply if_pos
  unfold filterDelMacHandlerCb
  dsimp only
  rw [if_pos hreach.admitted,heq]

/-- An add that is not counted books nothing for a shared address. -/
theorem adds_of_add_stays
    (hno : ¬ ∃ i, ReachesShared f.obj (requestVlan (flowStatus relFlow) a vlanId isInVlan) a i ∧
      AddGoes f.obj i x) (hj : getSharedMcastInfo f.obj b = some j) :
    (McastOwnership.step f (.add p a vlanId relFlow isInVlan x)).adds b = f.adds b := by
  by_cases hb : b = a
  · subst hb
    refine congrFun (if_neg fun hok => ?_) b
    unfold filterAddMacHandlerCb at hok
    dsimp only at hok
    by_cases hadm : (requestVlan (flowStatus relFlow) b vlanId isInVlan).1 = sok
    · rw [if_pos hadm] at hok
      cases hr : isRsvdMcast f.obj b (requestVlan (flowStatus relFlow) b vlanId isInVlan).2 with
      | true =>
        rw [filterAddMac_reserved hr] at hok
        exact ebadArgs_ne_sok hok
      | false =>
        have hg : ¬ AddGoes f.obj j x := fun hg => hno ⟨j,⟨hadm,hr,hj⟩,hg⟩
        exact (filterAddMac_fails hr hj hg).1 hok
    · rw [if_neg hadm] at hok
      exact hadm hok
  · exact ite_update_of_ne hb

/-- So does a delete. -/
theorem adds_of_del_stays
    (hno : ¬ ∃ i, ReachesShared f.obj (requestVlan sok a vlanId isInVlan) a i ∧
      VepaKnown f.obj a (requestVlan sok a vlanId isInVlan).2 ∧ DelGoes f.obj i y)
    (hj : getSharedMcastInfo f.obj b = some j) :
    (McastOwnership.step f (.del p a vlanId isInVlan y)).adds b = f.adds b := by
  by_cases hb : b = a
  · subst hb
    refine congrFun (if_neg fun hok => ?_) b
    unfold filterDelMacHandlerCb at hok
    dsimp only at hok
    by_cases hadm : (requestVlan sok b vlanId isInVlan).1 = sok
    · rw [if_pos hadm] at hok
      cases hr : isRsvdMcast f.obj b (requestVlan sok b vlanId isInVlan).2 with
      | true =>
        rw [filterDelMac_reserved hr] at hok
        exact ebadArgs_ne_sok hok
      | false =>
        have hg : ¬ (VepaKnown f.obj b (requestVlan sok b vlanId isInVlan).2 ∧
            DelGoes f.obj j y) := fun hg => hno ⟨j,⟨hadm,hr,hj⟩,hg.1,hg.2⟩
        exact (filterDelMac_fails hr hj hg).1 hok
    · rw [if_neg hadm] at hok
      exact hadm hok
  · exact ite_update_of_ne hb

end Books

/-- What a request leaves of the addresses it is not about. -/
structure Beside (s s' : Server w) (a : MacAddr) (i : Fin sharedMcastListLen) : Prop where
  /-- The look-up of every address is the same. -/
  lookup : ∀ b, getSharedMcastInfo s'.filter.obj b = getSharedMcastInfo s.filter.obj b
  /-- So are the books of the other addresses. -/
  adds : ∀ b, b ≠ a → s'.filter.adds b = s.filter.adds b
  /-- And the masks. -/
  mask : ∀ k, k ≠ i.val → s'.bridgePortMask k = s.bridgePortMask k
  /-- And the entries of the bridge. -/
  fdb : ∀ b, b ≠ a → s'.fdb b = s.fdb b

theorem FansOut.of_eq (h : FansOut c s a i) (hm : s'.bridgePortMask i.val = s.bridgePortMask i.val)
    (hf : s'.fdb a = s.fdb a) (ha : s'.filter.adds a = s.filter.adds a) : FansOut c s' a i := by
  refine ⟨?_,?_⟩
  · rw [hm,ha]
    exact h.ports
  · rw [hm,hf,ha]
    exact h.entry

theorem fdbUpdate_self {errVal : Status} {m : BitVec w} :
    fdbUpdate s a errVal m a = if errVal = sok then some m else none := by
  unfold fdbUpdate
  split
  · exact update_self ..
  · exact update_self ..

theorem fdbUpdate_of_ne {errVal : Status} {m : BitVec w} (hb : b ≠ a) :
    fdbUpdate s a errVal m b = s.fdb b := by
  unfold fdbUpdate
  split
  · rw [update_of_ne hb,update_of_ne hb]
  · exact update_of_ne hb ..

/-- Only the address a request is about needs a look. -/
theorem allFanOut_iff_of_beside (hs : AllFanOut c s) (he : Beside s s' a i)
    (hi : getSharedMcastInfo s.filter.obj a = some i) :
    AllFanOut c s' ↔ FansOut c s' a i := by
  constructor
  · intro h
    exact h a i (by rw [he.lookup]; exact hi)
  · intro h b j hj
    rw [he.lookup] at hj
    by_cases hb : b = a
    · subst hb
      obtain rfl : i = j := Option.some.inj (hi.symm.trans hj)
      exact h
    · have hji : j ≠ i := ne_of_getSharedMcastInfo hi hj hb
      exact (hs b j hj).of_eq (he.mask j.val fun h => hji (Fin.ext h)) (he.fdb b hb) (he.adds b hb)

/-- A request without a callback leaves the bridge right. -/
theorem allFanOut_of_quiet (hs : AllFanOut c s)
    (hl : ∀ b, getSharedMcastInfo s'.filter.obj b = getSharedMcastInfo s.filter.obj b)
    (hadds : ∀ b j, getSharedMcastInfo s.filter.obj b = some j →
      s'.filter.adds b = s.filter.adds b)
    (hm : s'.bridgePortMask = s.bridgePortMask) (hf : s'.fdb = s.fdb) : AllFanOut c s' := by
  intro b j hj
  rw [hl] at hj
  exact (hs b j hj).of_eq (by rw [hm]) (by rw [hf]) (hadds b j hj)

/-- One port more is served exactly when it is a port of the mask and the
bridge takes the entry. -/
theorem fansOut_add_iff {errVal : Status} (h : FansOut c s a i)
    (hadds : s'.filter.adds a = p :: s.filter.adds a)
    (hm : s'.bridgePortMask i.val = setBit (s.bridgePortMask i.val) (bridgePort c p))
    (hf : s'.fdb a = if errVal = sok then some (s'.bridgePortMask i.val) else none) :
    FansOut c s' a i ↔ bridgePort c p < w ∧ errVal = sok := by
  constructor
  · rintro ⟨hports,hentry⟩
    refine ⟨?_,?_⟩
    · apply lt_of_isSet
      apply (hports (bridgePort c p)).mpr
      rw [hadds]
      exact ⟨p,List.mem_cons_self,rfl⟩
    · by_contra hne
      rw [hadds,if_neg (List.cons_ne_nil p _),hf,if_neg hne] at hentry
      simp at hentry
  · rintro ⟨hlt,hok⟩
    refine ⟨fun b => ?_,?_⟩
    · rw [hm,hadds]
      by_cases hb : bridgePort c p = b
      · subst hb
        exact iff_of_true (isSet_setBit_self hlt) ⟨p,List.mem_cons_self,rfl⟩
      · rw [isSet_setBit_of_ne hb,h.ports b]
        simp [hb]
    · rw [hf,if_pos hok,hadds,if_neg (List.cons_ne_nil p _)]

/-- One add less is right exactly when no other one is behind the same
bridge port, and the bridge takes the entry if there is still one. -/
theorem fansOut_del_iff {errVal : Status} (h : FansOut c s a i)
    (hadds : s'.filter.adds a = (s.filter.adds a).erase p)
    (hm : s'.bridgePortMask i.val = clearBit (s.bridgePortMask i.val) (bridgePort c p))
    (hf : s'.fdb a = if clearBit (s.bridgePortMask i.val) (bridgePort c p) ≠ 0#w then
        if errVal = sok then some (clearBit (s.bridgePortMask i.val) (bridgePort c p)) else none
      else none) :
    FansOut c s' a i ↔ (∀ q ∈ (s.filter.adds a).erase p, bridgePort c q ≠ bridgePort c p) ∧
      ((s.filter.adds a).erase p ≠ [] → errVal = sok) := by
  rw [← hm] at hf
  have hports : (∀ b, isSet (s'.bridgePortMask i.val) b = true ↔
      ∃ q ∈ s'.filter.adds a, bridgePort c q = b) ↔
      ∀ q ∈ (s.filter.adds a).erase p, bridgePort c q ≠ bridgePort c p := by
    rw [hm,hadds]
    constructor
    · intro hb q hq heq
      have hset := (hb (bridgePort c p)).mpr ⟨q,hq,heq⟩
      rw [isSet_clearBit_self] at hset
      exact Bool.false_ne_true hset
    · intro hno b
      by_cases hb : bridgePort c p = b
      · subst hb
        rw [isSet_clearBit_self]
        refine iff_of_false Bool.false_ne_true ?_
        rintro ⟨q,hq,heq⟩
        exact hno q hq heq
      · rw [isSet_clearBit_of_ne hb,h.ports b]
        constructor
        · rintro ⟨q,hq,rfl⟩
          have hqp : q ≠ p := fun hqp => hb (by rw [hqp])
          exact ⟨q,(List.mem_erase_of_ne hqp).mpr hq,rfl⟩
        · rintro ⟨q,hq,rfl⟩
          exact ⟨q,List.mem_of_mem_erase hq,rfl⟩
  have hmask : (∀ b, isSet (s'.bridgePortMask i.val) b = true ↔
      ∃ q ∈ s'.filter.adds a, bridgePort c q = b) →
      (s'.bridgePortMask i.val = 0#w ↔ (s.filter.adds a).erase p = []) := by
    intro hb
    rw [eq_zero_iff,← hadds,List.eq_nil_iff_forall_not_mem]
    constructor
    · intro hz q hq
      have hset := (hb (bridgePort c q)).mpr ⟨q,hq,rfl⟩
      rw [hz] at hset
      exact Bool.false_ne_true hset
    · intro hnil b
      rw [← Bool.not_eq_true]
      intro hset
      obtain ⟨q,hq,-⟩ := (hb b).mp hset
      exact hnil q hq
  constructor
  · rintro ⟨hp,hentry⟩
    refine ⟨hports.mp hp,fun hne => ?_⟩
    have hnz : s'.bridgePortMask i.val ≠ 0#w := fun hz => hne ((hmask hp).mp hz)
    by_contra hfail
    rw [hf,if_pos hnz,if_neg hfail,hadds,if_neg hne] at hentry
    simp at hentry
  · rintro ⟨hno,hok⟩
    have hp := hports.mpr hno
    refine ⟨hp,?_⟩
    rw [hf,hadds]
    by_cases hnil : (s.filter.adds a).erase p = []
    · rw [if_pos hnil,if_neg (not_not.mpr ((hmask hp).mpr hnil))]
    · have hnz : s'.bridgePortMask i.val ≠ 0#w := fun hz => hnil ((hmask hp).mp hz)
      rw [if_neg hnil,if_pos hnz,if_pos (hok hnil)]

/-- The callbacks leave the filter alone. -/
@[simp] theorem step_filter (r : Request) :
    (step c s r).filter = McastOwnership.step s.filter r.event := by
  cases r with
  | add p a vlanId relFlow isInVlan x errVal =>
    unfold step filterAddMacSharedCb
    dsimp only
    split
    · split <;> rfl
    · rfl
  | del p a vlanId isInVlan y errVal =>
    unfold step filterDelMacSharedCb
    dsimp only
    split
    · split <;> rfl
    · rfl

/-- A request does not change where an address is found. -/
theorem lookup_step (r : Request) (b : MacAddr) :
    getSharedMcastInfo (step c s r).filter.obj b = getSharedMcastInfo s.filter.obj b := by
  rw [step_filter]
  cases r with
  | add p a vlanId relFlow isInVlan x errVal => exact lookup_add
  | del p a vlanId isInVlan y errVal => exact lookup_del

section Requests

variable {vlanId : U16} {relFlow : Status × U32} {isInVlan : Bool} {errVal : Status}

/-- A counted add sets the bit of its core. -/
theorem step_add_goes (hx : Indexed c s)
    (hreach : ReachesShared s.filter.obj (requestVlan (flowStatus relFlow) a vlanId isInVlan) a i)
    (hg : AddGoes s.filter.obj i x) :
    step c s (.add p a vlanId relFlow isInVlan x errVal) = {
      filter := McastOwnership.step s.filter (.add p a vlanId relFlow isInVlan x)
      bridgePortMask := update s.bridgePortMask i.val
        (setBit (s.bridgePortMask i.val) (bridgePort c p))
      fdb := fdbUpdate s a errVal (setBit (s.bridgePortMask i.val) (bridgePort c p)) } := by
  unfold step
  dsimp only
  rw [if_pos (addCallsBack_iff.mpr ⟨i,hreach,hg⟩)]
  unfold filterAddMacSharedCb
  rw [hx a i hreach.found]
  rfl

/-- Any other add leaves the bridge alone. -/
theorem step_add_stays
    (hno : ¬ ∃ i, ReachesShared s.filter.obj
      (requestVlan (flowStatus relFlow) a vlanId isInVlan) a i ∧ AddGoes s.filter.obj i x) :
    step c s (.add p a vlanId relFlow isInVlan x errVal) =
      { s with filter := McastOwnership.step s.filter (.add p a vlanId relFlow isInVlan x) } :=
  if_neg fun h => hno (addCallsBack_iff.mp h)

/-- A counted delete clears the bit of its core. -/
theorem step_del_goes (hx : Indexed c s)
    (hreach : ReachesShared s.filter.obj (requestVlan sok a vlanId isInVlan) a i)
    (hk : VepaKnown s.filter.obj a (requestVlan sok a vlanId isInVlan).2)
    (hg : DelGoes s.filter.obj i y) :
    step c s (.del p a vlanId isInVlan y errVal) = {
      filter := McastOwnership.step s.filter (.del p a vlanId isInVlan y)
      bridgePortMask := update s.bridgePortMask i.val
        (clearBit (s.bridgePortMask i.val) (bridgePort c p))
      fdb := if clearBit (s.bridgePortMask i.val) (bridgePort c p) ≠ 0#w then
          fdbUpdate s a errVal (clearBit (s.bridgePortMask i.val) (bridgePort c p))
        else update s.fdb a none } := by
  unfold step
  dsimp only
  rw [if_pos (delCallsBack_iff.mpr ⟨i,hreach,hk,hg⟩)]
  unfold filterDelMacSharedCb
  rw [hx a i hreach.found]
  rfl

/-- Any other delete leaves the bridge alone. -/
theorem step_del_stays
    (hno : ¬ ∃ i, ReachesShared s.filter.obj (requestVlan sok a vlanId isInVlan) a i ∧
      VepaKnown s.filter.obj a (requestVlan sok a vlanId isInVlan).2 ∧
      DelGoes s.filter.obj i y) :
    step c s (.del p a vlanId isInVlan y errVal) =
      { s with filter := McastOwnership.step s.filter (.del p a vlanId isInVlan y) } :=
  if_neg fun h => hno (delCallsBack_iff.mp h)

/-- From a right bridge, an add keeps it right exactly under its
condition. -/
theorem add_allFanOut_iff (hs : AllFanOut c s) (hx : Indexed c s) :
    AllFanOut c (step c s (.add p a vlanId relFlow isInVlan x errVal)) ↔
      KeepsFanOut c s (.add p a vlanId relFlow isInVlan x errVal) := by
  have hlookup := lookup_step (c := c) (s := s) (.add p a vlanId relFlow isInVlan x errVal)
  by_cases hcall : ∃ i, ReachesShared s.filter.obj
      (requestVlan (flowStatus relFlow) a vlanId isInVlan) a i ∧ AddGoes s.filter.obj i x
  · obtain ⟨i,hreach,hg⟩ := hcall
    have hadds := adds_of_add_goes (p := p) hreach hg
    rw [step_add_goes hx hreach hg] at hlookup ⊢
    rw [allFanOut_iff_of_beside (i := i) hs ⟨hlookup,fun b hb => ?_,
      fun k hk => update_of_ne hk ..,fun b hb => fdbUpdate_of_ne hb⟩ hreach.found]
    · rw [fansOut_add_iff (hs a i hreach.found) ?_ (update_self ..) ?_]
      · constructor
        · exact fun h j hj _ => h
        · exact fun h => h i hreach hg
      · dsimp only
        rw [hadds,update_self]
      · dsimp only
        rw [update_self,fdbUpdate_self]
    · dsimp only
      rw [hadds,update_of_ne hb]
  · rw [step_add_stays hcall] at hlookup ⊢
    refine iff_of_true (allFanOut_of_quiet hs hlookup ?_ rfl rfl)
      fun i hreach hg => absurd ⟨i,hreach,hg⟩ hcall
    exact fun b j hj => adds_of_add_stays hcall hj

/-- So does a delete. -/
theorem del_allFanOut_iff (hs : AllFanOut c s) (hx : Indexed c s) :
    AllFanOut c (step c s (.del p a vlanId isInVlan y errVal)) ↔
      KeepsFanOut c s (.del p a vlanId isInVlan y errVal) := by
  have hlookup := lookup_step (c := c) (s := s) (.del p a vlanId isInVlan y errVal)
  by_cases hcall : ∃ i, ReachesShared s.filter.obj (requestVlan sok a vlanId isInVlan) a i ∧
      VepaKnown s.filter.obj a (requestVlan sok a vlanId isInVlan).2 ∧ DelGoes s.filter.obj i y
  · obtain ⟨i,hreach,hk,hg⟩ := hcall
    have hadds := adds_of_del_goes (p := p) hreach hk hg
    rw [step_del_goes hx hreach hk hg] at hlookup ⊢
    rw [allFanOut_iff_of_beside (i := i) hs ⟨hlookup,fun b hb => ?_,
      fun k hk => update_of_ne hk ..,fun b hb => ?_⟩ hreach.found]
    · rw [fansOut_del_iff (hs a i hreach.found) ?_ (update_self ..) ?_]
      · constructor
        · exact fun h j hj _ _ => h
        · exact fun h => h i hreach hk hg
      · dsimp only
        rw [hadds,update_self]
      · dsimp only
        split
        · exact fdbUpdate_self
        · exact update_self ..
    · dsimp only
      rw [hadds,update_of_ne hb]
    · dsimp only
      split
      · exact fdbUpdate_of_ne hb
      · exact update_of_ne hb ..
  · rw [step_del_stays hcall] at hlookup ⊢
    refine iff_of_true (allFanOut_of_quiet hs hlookup ?_ rfl rfl)
      fun i hreach hk hg => absurd ⟨i,hreach,hk,hg⟩ hcall
    exact fun b j hj => adds_of_del_stays hcall hj

end Requests

/-- Where the application finds an address does not change. -/
theorem step_indexed (hx : Indexed c s) (r : Request) : Indexed c (step c s r) := by
  intro a i hi
  rw [lookup_step] at hi
  exact hx a i hi

/-- From a right server, a request keeps it right, and no delete takes
nobody's add, exactly under its two conditions. -/
theorem step_fanOutOk_iff {r : Request} (hs : FanOutOk c s) (hx : Indexed c s) :
    FanOutOk c (step c s r) ∧ DeletesOwn s.filter r.event ↔
      KeepsOwnership s.filter r.event ∧ KeepsFanOut c s r := by
  have hbridge : AllFanOut c (step c s r) ↔ KeepsFanOut c s r := by
    cases r with
    | add p a vlanId relFlow isInVlan x errVal => exact add_allFanOut_iff hs.2 hx
    | del p a vlanId isInVlan y errVal => exact del_allFanOut_iff hs.2 hx
  unfold FanOutOk
  rw [step_filter,hbridge,and_right_comm,step_ownershipOk_iff hs.1]

section StartUp

variable {ale : MacAddr → Option U32} {rsvd : List RsvdMcast} {m n : U32}

/-- The application's table is the one the filter was initialised with. -/
theorem startUp_indexed : Indexed c (startUp c ale rsvd m n : Server w) := by
  intro a i hi
  by_cases hacc : AcceptedShared c.sharedMcastCfgTable
  · obtain ⟨hlen,-,htable⟩ := init_accepted hacc (zeroed ale none) rsvd m n
    obtain ⟨⟨hlt,hmac⟩,hfirst⟩ := getSharedMcastInfo_eq_some_iff.mp hi
    have hentry : ∀ (k : Fin sharedMcastListLen) (hk : k.val < c.sharedMcastCfgTable.length),
        ((startUp c ale rsvd m n : Server w).filter.obj.sharedMcast k).macAddr =
          c.sharedMcastCfgTable[k.val].macAddr := by
      intro k hk
      have hk' : (startUp c ale rsvd m n : Server w).filter.obj.sharedMcast k =
          (c.sharedMcastCfgTable[k.val]?).elim ⟨VepaTable.zeroAddr,0#32,0#32,0#32⟩ sharedEntry :=
        htable k
      rw [hk',List.getElem?_eq_getElem hk]
      rfl
    have hlen' : (startUp c ale rsvd m n : Server w).filter.obj.sharedLen =
        c.sharedMcastCfgTable.length := hlen
    rw [hlen'] at hlt hfirst
    unfold tableIndex
    rw [List.findIdx?_eq_some_iff_getElem]
    refine ⟨hlt,?_,fun k hk => ?_⟩
    · rw [decide_eq_true_eq,← hentry i hlt]
      exact hmac
    · have hk8 : k < sharedMcastListLen := Nat.lt_trans hk i.isLt
      have hklen : k < c.sharedMcastCfgTable.length := Nat.lt_trans hk hlt
      rw [decide_eq_true_eq,← hentry ⟨k,hk8⟩ hklen]
      exact fun heq => hfirst ⟨k,hk8⟩ hk ⟨hklen,heq⟩
  · have hcount := (getSharedMcastInfo_eq_some_iff.mp hi).1.1
    change i.val < (init (zeroed ale none) c.sharedMcastCfgTable rsvd m n).2.sharedLen at hcount
    rw [init_rejected hacc] at hcount
    exact absurd hcount (Nat.not_lt_zero _)

/-- Nothing is passed on before the first add. -/
theorem startUp_allFanOut : AllFanOut c (startUp c ale rsvd m n : Server w) := by
  intro a i _
  refine ⟨fun b => ?_,?_⟩
  · change isSet (0#w) b = true ↔ ∃ p ∈ [], bridgePort c p = b
    simp
  · rfl

end StartUp

end EthernetFirmware.SharedMcastBridge
