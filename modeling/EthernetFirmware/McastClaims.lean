import EthernetFirmware.McastExclusive

/-!
# Claims of exclusive multicast addresses

A claim takes an entry of the exclusive table first and then programs the
hardware: the ALE entry of the address and a classifier that steers it to
the flow of the port. Neither a failing ALE ioctl nor a failing classifier
ioctl gives the entry back, and a later add of the port finds the entry and
succeeds without touching the hardware.

Beside the filter the state records the classifiers of exclusive addresses
that have been set and not deleted; the ALE is part of the filter's state.
-/

namespace EthernetFirmware.McastClaims

open Function SlotTables KeyedTables RemoteConfig McastFilter McastExclusive GuardedRuns

/-- What the classifier of an exclusive address matches. -/
structure Classifier where
  /-- Destination address. -/
  macAddr : MacAddr
  /-- Ingress port, for the addresses of virtual MAC ports. -/
  port : Option U32
  deriving DecidableEq

/-- Match of the classifier that a port sets for an address. -/
def classifier (virtPort : U32) (macAddr : MacAddr) : Classifier where
  macAddr := macAddr
  port := if isMacPort virtPort then some (getMacPort virtPort + 1#32) else none

/-- The filter and the classifiers of exclusive addresses. -/
structure Wired where
  /-- Tables and ALE. -/
  obj : McastObj
  /-- Classifiers that are set. -/
  policers : Classifier → Bool

/-- Classifiers after `EthFwMcast_filterAddMacExcl`, which sets one once the
address is in the ALE. -/
def filterAddMacExclPolicers (s : Wired) (virtPort : PortId) (macAddr : MacAddr)
    (x : AddOutcomes) : Classifier → Bool :=
  if x.lookupMcast = enotfound then
    match firstSlot ExclusiveMcastInfo.isFree s.obj.exclusiveMcast with
    | none => s.policers
    | some _ =>
      if x.addMcast = sok ∧ x.setPolicer = sok then
        update s.policers (classifier virtPort.val macAddr) true
      else s.policers
  else s.policers

/-- Classifiers after `EthFwMcast_filterDelMacExcl`. -/
def filterDelMacExclPolicers (s : Wired) (virtPort : PortId) (macAddr : MacAddr)
    (y : DelOutcomes) : Classifier → Bool :=
  if y.delPolicer = sok then update s.policers (classifier virtPort.val macAddr) false
  else s.policers

/-- Classifiers after `EthFwMcast_filterAddMac`. -/
def filterAddMacPolicers (s : Wired) (virtPort : PortId) (macAddr : MacAddr) (vlanId : U16)
    (x : AddOutcomes) : Classifier → Bool :=
  if isRsvdMcast s.obj macAddr vlanId then s.policers
  else
    match getSharedMcastInfo s.obj macAddr with
    | some _ => s.policers
    | none =>
      match getExclusiveMcastInfo s.obj macAddr with
      | some _ => s.policers
      | none => filterAddMacExclPolicers s virtPort macAddr x

/-- Classifiers after `EthFwMcast_filterDelMac`. -/
def filterDelMacPolicers (s : Wired) (virtPort : PortId) (macAddr : MacAddr) (vlanId : U16)
    (y : DelOutcomes) : Classifier → Bool :=
  if isRsvdMcast s.obj macAddr vlanId then s.policers
  else
    match getSharedMcastInfo s.obj macAddr with
    | some _ => s.policers
    | none =>
      match getExclusiveMcastInfo s.obj macAddr with
      | some i =>
        if (s.obj.exclusiveMcast i).virtPort = virtPort.val ∧
            (s.obj.exclusiveMcast i).refCnt = 1#32 then
          filterDelMacExclPolicers s virtPort macAddr y
        else s.policers
      | none => s.policers

/-- Calls of the filter and other use of the VEPA object. -/
inductive Call where
  /-- `EthFwMcast_filterAddMac`. -/
  | add (virtPort : PortId) (macAddr : MacAddr) (vlanId : U16) (x : AddOutcomes)
  /-- `EthFwMcast_filterDelMac`. -/
  | del (virtPort : PortId) (macAddr : MacAddr) (vlanId : U16) (y : DelOutcomes)
  /-- Another user of the VEPA object leaves it with this content. -/
  | vepaUse (vepa : VepaTable.VepaObj)

/-- State after a call. -/
def step (s : Wired) : Call → Wired
  | .add virtPort macAddr vlanId x =>
    ⟨(filterAddMac s.obj virtPort macAddr vlanId x).2,
      filterAddMacPolicers s virtPort macAddr vlanId x⟩
  | .del virtPort macAddr vlanId y =>
    ⟨(filterDelMac s.obj virtPort macAddr vlanId y).2,
      filterDelMacPolicers s virtPort macAddr vlanId y⟩
  | .vepaUse vepa => { s with obj := { s.obj with vepa := s.obj.vepa.map fun _ => vepa } }

/-- An initialised filter. -/
def startUp (ale : MacAddr → Option U32) (vepa : Option VepaTable.VepaObj)
    (policers : Classifier → Bool) (shared : List McastCfg) (rsvd : List RsvdMcast)
    (switchPortMask macOnlyPortMask : U32) : Wired where
  obj := (init (zeroed ale vepa) shared rsvd switchPortMask macOnlyPortMask).2
  policers := policers

/-- The hardware has the address for the port: an ALE entry and the
classifier. -/
def Wire (s : Wired) (virtPort : U32) (macAddr : MacAddr) : Prop :=
  s.obj.ale macAddr ≠ none ∧ s.policers (classifier virtPort macAddr) = true

/-- Every exclusive entry in use stands for an address that the hardware
has. -/
def Programmed (s : Wired) : Prop :=
  ∀ i, inUse (s.obj.exclusiveMcast i) = true →
    Wire s (s.obj.exclusiveMcast i).virtPort (s.obj.exclusiveMcast i).macAddr

/-- An address a port can have for itself on a VLAN: neither reserved nor
shared. -/
def Exclusive (o : McastObj) (macAddr : MacAddr) (vlanId : U16) : Prop :=
  isRsvdMcast o macAddr vlanId = false ∧ getSharedMcastInfo o macAddr = none

/-- A failing add of an exclusive address leaves the exclusive table as it
was, and after a successful one the hardware has the address. -/
def AddOk (s : Wired) : Call → Prop
  | .add p a v x => Exclusive s.obj a v →
    ((filterAddMac s.obj p a v x).1 ≠ sok →
      (filterAddMac s.obj p a v x).2.exclusiveMcast = s.obj.exclusiveMcast) ∧
    ((filterAddMac s.obj p a v x).1 = sok → Wire (step s (.add p a v x)) p.val a)
  | .del _ _ _ _ => True
  | .vepaUse _ => True

/-- An add that takes an entry of the exclusive table. -/
structure TakesEntry (o : McastObj) (macAddr : MacAddr) (vlanId : U16) (x : AddOutcomes) :
    Prop where
  /-- The address is exclusive. -/
  exclusive : Exclusive o macAddr vlanId
  /-- It has no entry. -/
  new : getExclusiveMcastInfo o macAddr = none
  /-- The ALE does not have it. -/
  lookup : x.lookupMcast = enotfound
  /-- There is a free entry. -/
  free : ∃ i, (o.exclusiveMcast i).isFree = true

/-- An add that takes an entry has both its ioctls succeed. -/
def ClaimGoes (s : Wired) : Call → Prop
  | .add _ a v x => TakesEntry s.obj a v x → x.addMcast = sok ∧ x.setPolicer = sok
  | .del _ _ _ _ => True
  | .vepaUse _ => True

/-! ## What the calls do -/

section Calls

variable {o : McastObj} {s : Wired} {p : PortId} {a : MacAddr} {v : U16} {x : AddOutcomes}
  {y : DelOutcomes}

/-- An add that takes an entry: it succeeds when both ioctls do. -/
theorem filterAddMac_takes (h : TakesEntry s.obj a v x) :
    ∃ i, (s.obj.exclusiveMcast i).isFree = true ∧
      (filterAddMac s.obj p a v x).2.exclusiveMcast =
        update s.obj.exclusiveMcast i ⟨a,p.val,1#32,false⟩ ∧
      ((filterAddMac s.obj p a v x).1 = sok ↔ x.addMcast = sok ∧ x.setPolicer = sok) ∧
      (x.addMcast = sok ∧ x.setPolicer = sok →
        (∃ mask, (filterAddMac s.obj p a v x).2 = { s.obj with
          exclusiveMcast := update s.obj.exclusiveMcast i ⟨a,p.val,1#32,false⟩
          ale := update s.obj.ale a (some mask) }) ∧
        filterAddMacPolicers s p a v x = update s.policers (classifier p.val a) true) := by
  obtain ⟨⟨hr,hs⟩,hnew,hlook,j,hj⟩ := h
  unfold filterAddMac filterAddMacPolicers
  rw [hr,hs,hnew,if_neg Bool.false_ne_true,if_neg Bool.false_ne_true]
  dsimp only
  unfold filterAddMacExcl filterAddMacExclPolicers
  have hfound : x.lookupMcast ≠ sok := by
    rw [hlook]
    decide
  rw [if_neg hfound,if_neg (not_not.mpr hlook),if_pos hlook]
  cases hslot : firstSlot ExclusiveMcastInfo.isFree s.obj.exclusiveMcast with
  | none => exact absurd ((firstSlot_eq_none_iff.mp hslot j).symm.trans hj) Bool.false_ne_true
  | some i =>
    refine ⟨i,(firstSlot_eq_some_iff.mp hslot).1,?_⟩
    dsimp only
    by_cases hadd : x.addMcast = sok
    · rw [hadd,addMcastEntry_ok,if_pos rfl]
      refine ⟨rfl,(and_iff_right rfl).symm,fun hboth => ⟨⟨_,rfl⟩,?_⟩⟩
      rw [if_pos hboth]
    · rw [addMcastEntry_failed hadd,if_neg hadd]
      exact ⟨rfl,iff_of_false hadd fun hboth => hadd hboth.1,fun hboth => absurd hboth.1 hadd⟩

/-- An add of an exclusive address that takes no entry leaves the owners
and the hardware alone; it succeeds for an address that the port has. -/
theorem filterAddMac_again (hx : Exclusive s.obj a v) (h : ¬ TakesEntry s.obj a v x) :
    filterAddMacPolicers s p a v x = s.policers ∧
      ((filterAddMac s.obj p a v x).1 ≠ sok ∧ (filterAddMac s.obj p a v x).2 = s.obj ∨
        ∃ i, getExclusiveMcastInfo s.obj a = some i ∧
          (s.obj.exclusiveMcast i).virtPort = p.val ∧
          filterAddMac s.obj p a v x =
            (sok,setExclusive s.obj i fun e => { e with refCnt := e.refCnt + 1#32 })) := by
  constructor
  · unfold filterAddMacPolicers filterAddMacExclPolicers
    rw [hx.1,hx.2,if_neg Bool.false_ne_true]
    dsimp only
    cases hi : getExclusiveMcastInfo s.obj a with
    | some i => rfl
    | none =>
      dsimp only
      by_cases hlook : x.lookupMcast = enotfound
      · rw [if_pos hlook]
        cases hslot : firstSlot ExclusiveMcastInfo.isFree s.obj.exclusiveMcast with
        | none => rfl
        | some j => exact absurd ⟨hx,hi,hlook,j,(firstSlot_eq_some_iff.mp hslot).1⟩ h
      · rw [if_neg hlook]
  · have heff := filterAddMac_effect (p := p) (x := x) hx.1 hx.2
    revert heff
    generalize filterAddMac s.obj p a v x = r
    intro heff
    cases heff with
    | again i hi hp => exact Or.inr ⟨i,hi,hp,rfl⟩
    | other i st hi hp hst => exact Or.inl ⟨hst,rfl⟩
    | refused st hi hfull hst => exact Or.inl ⟨hst,rfl⟩
    | claimed i st ale hi hlook hfree hst => exact absurd ⟨hx,hi,hlook,i,hfree⟩ h

/-- The owner gives its last reference back. -/
structure Releases (o : McastObj) (p : PortId) (a : MacAddr) (v : U16) (y : DelOutcomes)
    (i : Fin exclusiveMcastListLen) : Prop where
  /-- The address is exclusive. -/
  exclusive : Exclusive o a v
  /-- The entry is its own. -/
  found : getExclusiveMcastInfo o a = some i
  /-- The port owns it. -/
  owner : (o.exclusiveMcast i).virtPort = p.val
  /-- One reference is left. -/
  last : (o.exclusiveMcast i).refCnt = 1#32
  /-- The classifier can be deleted. -/
  ioctl : y.delPolicer = sok

/-- Giving back the last reference frees the entry and removes the address
from the hardware. -/
theorem filterDelMac_releases {i : Fin exclusiveMcastListLen} (h : Releases s.obj p a v y i) :
    (filterDelMac s.obj p a v y).2 = { s.obj with
        exclusiveMcast := update s.obj.exclusiveMcast i
          { s.obj.exclusiveMcast i with isFree := true, refCnt := 0#32 }
        ale := update s.obj.ale a none } ∧
      filterDelMacPolicers s p a v y = update s.policers (classifier p.val a) false := by
  obtain ⟨⟨hr,hs⟩,hi,hp,hone,hpol⟩ := h
  unfold filterDelMac filterDelMacPolicers filterDelMacExcl filterDelMacExclPolicers
  rw [hr,hs,hi,if_neg Bool.false_ne_true,if_neg Bool.false_ne_true]
  dsimp only
  have hmany : ¬ 1#32 < (s.obj.exclusiveMcast i).refCnt := by
    rw [hone]
    exact BitVec.lt_irrefl _
  rw [if_pos hp,if_neg hmany,if_pos hone,hpol,removeEntry_ok,if_pos rfl,if_pos ⟨hp,hone⟩,if_pos rfl]
  exact ⟨rfl,rfl⟩

/-- Any other delete of an exclusive address changes a count at most. -/
theorem filterDelMac_keeps (hx : Exclusive s.obj a v)
    (h : ∀ i, ¬ Releases s.obj p a v y i) :
    filterDelMacPolicers s p a v y = s.policers ∧
      ((filterDelMac s.obj p a v y).2 = s.obj ∨
        ∃ i n, (filterDelMac s.obj p a v y).2 =
          setExclusive s.obj i fun e => { e with refCnt := n }) := by
  unfold filterDelMac filterDelMacPolicers filterDelMacExcl filterDelMacExclPolicers
  rw [hx.1,hx.2,if_neg Bool.false_ne_true,if_neg Bool.false_ne_true]
  dsimp only
  cases hi : getExclusiveMcastInfo s.obj a with
  | none => exact ⟨rfl,Or.inl rfl⟩
  | some i =>
    dsimp only
    by_cases hp : (s.obj.exclusiveMcast i).virtPort = p.val
    · rw [if_pos hp]
      by_cases hone : (s.obj.exclusiveMcast i).refCnt = 1#32
      · have hmany : ¬ 1#32 < (s.obj.exclusiveMcast i).refCnt := by
          rw [hone]
          exact BitVec.lt_irrefl _
        have hpol : y.delPolicer ≠ sok := fun hpol => h i ⟨hx,hi,hp,hone,hpol⟩
        rw [if_neg hmany,if_pos hone,if_pos ⟨hp,hone⟩,if_neg hpol,removeEntry_failed hpol,
          if_neg hpol]
        exact ⟨rfl,Or.inr ⟨i,1#32,rfl⟩⟩
      · rw [if_neg hone,if_neg fun hc => hone hc.2]
        refine ⟨rfl,?_⟩
        split
        · exact Or.inr ⟨i,_,rfl⟩
        · exact Or.inl rfl
    · rw [if_neg hp,if_neg fun hc => hp hc.1]
      exact ⟨rfl,Or.inl rfl⟩

/-- A change of the table that leaves every claim as it is. -/
def SameOwner (e e' : ExclusiveMcastInfo) : Prop :=
  e'.isFree = e.isFree ∧ e'.virtPort = e.virtPort ∧ e'.macAddr = e.macAddr

/-- The claims, the classifiers and the ALE entries of addresses that are
not shared stay as they are. -/
structure SameClaims (s s' : Wired) : Prop where
  /-- The exclusive table has the same claims. -/
  owners : ∀ j, SameOwner (s.obj.exclusiveMcast j) (s'.obj.exclusiveMcast j)
  /-- The same addresses are shared. -/
  shared : ∀ b, getSharedMcastInfo s'.obj b = getSharedMcastInfo s.obj b
  /-- The classifiers are the same. -/
  policers : s'.policers = s.policers
  /-- So are the ALE entries. -/
  ale : ∀ b, getSharedMcastInfo s.obj b = none → s'.obj.ale b = s.obj.ale b

variable {s' : Wired}

theorem sameClaims_of_obj (hobj : s'.obj = s.obj) (hpol : s'.policers = s.policers) :
    SameClaims s s' := by
  refine ⟨fun j => ?_,fun b => ?_,hpol,fun b _ => ?_⟩
  · rw [hobj]
    exact ⟨rfl,rfl,rfl⟩
  · rw [hobj]
  · rw [hobj]

/-- A new count changes no claim. -/
theorem sameClaims_recount {i : Fin exclusiveMcastListLen} {n : U32}
    (hobj : s'.obj = setExclusive s.obj i fun e => { e with refCnt := n })
    (hpol : s'.policers = s.policers) : SameClaims s s' := by
  refine ⟨fun j => ?_,fun b => ?_,hpol,fun b _ => ?_⟩
  · rw [hobj]
    unfold setExclusive
    dsimp only
    by_cases hj : j = i
    · subst hj
      rw [update_self]
      exact ⟨rfl,rfl,rfl⟩
    · rw [update_of_ne hj]
      exact ⟨rfl,rfl,rfl⟩
  · rw [hobj]
    rfl
  · rw [hobj]
    rfl

/-- A call for a shared address changes no claim. -/
theorem sameClaims_shared {r : Status × McastObj} (hshared : getSharedMcastInfo s.obj a ≠ none)
    (hby : Bypasses s.obj a r) (hale : ∀ b, b ≠ a → r.2.ale b = s.obj.ale b)
    (hobj : s'.obj = r.2) (hpol : s'.policers = s.policers) : SameClaims s s' := by
  refine ⟨fun j => ?_,fun b => ?_,hpol,fun b hb => ?_⟩
  · rw [hobj,hby.table]
    exact ⟨rfl,rfl,rfl⟩
  · rw [hobj]
    exact hby.lists.shared b
  · rw [hobj]
    refine hale b ?_
    rintro rfl
    exact hshared hb

/-- An add changes the ALE for its address alone. -/
theorem filterAddMac_ale_of_ne {b : MacAddr} (hb : b ≠ a) :
    (filterAddMac o p a v x).2.ale b = o.ale b := by
  cases hr : isRsvdMcast o a v with
  | true => rw [filterAddMac_reserved hr]
  | false =>
    cases hs : getSharedMcastInfo o a with
    | none => exact (filterAddMac_frame hs).ale b hb
    | some i =>
      by_cases hg : AddGoes o i x
      · obtain ⟨vepa,heq⟩ := filterAddMac_goes (p := p) hr hs hg
        rw [heq]
        dsimp only
        split
        · exact update_of_ne hb ..
        · rfl
      · rw [(filterAddMac_fails (p := p) hr hs hg).2]
        dsimp only
        split
        · exact update_of_ne hb ..
        · rfl

/-- So does a delete. -/
theorem filterDelMac_ale_of_ne {b : MacAddr} (hb : b ≠ a) :
    (filterDelMac o p a v y).2.ale b = o.ale b := by
  cases hr : isRsvdMcast o a v with
  | true => rw [filterDelMac_reserved hr]
  | false =>
    cases hs : getSharedMcastInfo o a with
    | none => exact (filterDelMac_frame hs).ale b hb
    | some i =>
      by_cases hg : VepaKnown o a v ∧ DelGoes o i y
      · obtain ⟨vepa,heq⟩ := filterDelMac_goes (p := p) hr hs hg.1 hg.2
        rw [heq]
        dsimp only
        split
        · exact update_of_ne hb ..
        · rfl
      · obtain ⟨-,vepa,heq⟩ := filterDelMac_fails (p := p) hr hs hg
        rw [heq]

/-- An add of a reserved or shared address changes no claim. -/
theorem sameClaims_add (h : ¬ Exclusive s.obj a v) : SameClaims s (step s (.add p a v x)) := by
  cases hr : isRsvdMcast s.obj a v with
  | true =>
    refine sameClaims_of_obj (congrArg Prod.snd (filterAddMac_reserved hr)) ?_
    exact if_pos hr
  | false =>
    cases hs : getSharedMcastInfo s.obj a with
    | none => exact absurd ⟨hr,hs⟩ h
    | some i =>
      refine sameClaims_shared (hs ▸ Option.some_ne_none i) (filterAddMac_bypasses hr hs)
        (fun b hb => filterAddMac_ale_of_ne hb) rfl ?_
      simp only [step,filterAddMacPolicers,hr,hs,ite_self]

/-- So does a delete of one. -/
theorem sameClaims_del (h : ¬ Exclusive s.obj a v) : SameClaims s (step s (.del p a v y)) := by
  cases hr : isRsvdMcast s.obj a v with
  | true =>
    refine sameClaims_of_obj (congrArg Prod.snd (filterDelMac_reserved hr)) ?_
    exact if_pos hr
  | false =>
    cases hs : getSharedMcastInfo s.obj a with
    | none => exact absurd ⟨hr,hs⟩ h
    | some i =>
      refine sameClaims_shared (hs ▸ Option.some_ne_none i) (filterDelMac_bypasses hr hs)
        (fun b hb => filterDelMac_ale_of_ne hb) rfl ?_
      simp only [step,filterDelMacPolicers,hr,hs,ite_self]

end Calls

/-! ## Claims and hardware along a run -/

section Runs

variable {s s' : Wired} {p : PortId} {a : MacAddr} {v : U16} {x : AddOutcomes} {y : DelOutcomes}
  {i : Fin exclusiveMcastListLen}

/-- What every call whose claim goes through keeps. -/
structure ClaimsInv (s : Wired) : Prop where
  /-- An address has one entry. -/
  distinct : Distinct inUse ExclusiveMcastInfo.macAddr s.obj.exclusiveMcast
  /-- It is not shared. -/
  notShared : ∀ i, inUse (s.obj.exclusiveMcast i) = true →
    getSharedMcastInfo s.obj (s.obj.exclusiveMcast i).macAddr = none
  /-- The hardware has it. -/
  programmed : Programmed s

theorem inUse_of_sameOwner {e e' : ExclusiveMcastInfo} (h : SameOwner e e') :
    inUse e' = inUse e := by
  unfold inUse
  rw [h.1]

/-- The hardware still has what it had for an address that is not shared. -/
theorem Wire.kept (h : Wire s p.val a) (hs : SameClaims s s')
    (ha : getSharedMcastInfo s.obj a = none) : Wire s' p.val a :=
  ⟨by rw [hs.ale a ha]; exact h.1,by rw [hs.policers]; exact h.2⟩

/-- A call that changes no claim keeps the invariant. -/
theorem ClaimsInv.of_same (h : ClaimsInv s) (hs : SameClaims s s') : ClaimsInv s' := by
  have huse : ∀ j, inUse (s'.obj.exclusiveMcast j) = true →
      inUse (s.obj.exclusiveMcast j) = true :=
    fun j hj => (inUse_of_sameOwner (hs.owners j)).symm.trans hj
  refine ⟨fun j l hj hl hjl => ?_,fun j hj => ?_,fun j hj => ?_⟩
  · rw [(hs.owners j).2.2,(hs.owners l).2.2] at hjl
    exact h.distinct j l (huse j hj) (huse l hl) hjl
  · rw [(hs.owners j).2.2,hs.shared]
    exact h.notShared j (huse j hj)
  · obtain ⟨hale,hpol⟩ := h.programmed j (huse j hj)
    rw [(hs.owners j).2.2,(hs.owners j).2.1]
    refine ⟨?_,by rw [hs.policers]; exact hpol⟩
    rw [hs.ale _ (h.notShared j (huse j hj))]
    exact hale

theorem classifier_ne {q r : U32} {b : MacAddr} (h : b ≠ a) : classifier q b ≠ classifier r a :=
  fun hc => h (congrArg Classifier.macAddr hc)

/-- A claim that goes through keeps the invariant: the new entry is the only
one of its address, and the hardware has it. -/
theorem ClaimsInv.claimed {mask : U32} (h : ClaimsInv s) (hx : Exclusive s.obj a v)
    (hnew : getExclusiveMcastInfo s.obj a = none)
    (hobj : s'.obj = { s.obj with
      exclusiveMcast := update s.obj.exclusiveMcast i ⟨a,p.val,1#32,false⟩
      ale := update s.obj.ale a (some mask) })
    (hpol : s'.policers = update s.policers (classifier p.val a) true) :
    ClaimsInv s' ∧ Wire s' p.val a := by
  have hwire : Wire s' p.val a := by
    refine ⟨?_,by rw [hpol,update_self]⟩
    rw [hobj]
    dsimp only
    rw [update_self]
    exact Option.some_ne_none mask
  rw [getExclusiveMcastInfo_eq_slotOf,slotOf_eq_none_iff] at hnew
  have htable : s'.obj.exclusiveMcast =
      update s.obj.exclusiveMcast i ⟨a,p.val,1#32,false⟩ := by rw [hobj]
  have hother : ∀ j, j ≠ i → s'.obj.exclusiveMcast j = s.obj.exclusiveMcast j := by
    intro j hj
    rw [htable,update_of_ne hj]
  refine ⟨⟨?_,fun j hj => ?_,fun j hj => ?_⟩,hwire⟩
  · rw [htable]
    exact distinct_fill h.distinct (entryOf_eq_none_iff.mpr hnew)
  · have hshared : ∀ b, getSharedMcastInfo s'.obj b = getSharedMcastInfo s.obj b := by
      rw [hobj]
      exact fun _ => rfl
    rw [hshared]
    by_cases hji : j = i
    · subst hji
      rw [htable,update_self]
      exact hx.2
    · rw [hother j hji] at hj ⊢
      exact h.notShared j hj
  · by_cases hji : j = i
    · subst hji
      rw [htable,update_self]
      exact hwire
    · rw [hother j hji] at hj ⊢
      have hne := hnew j hj
      obtain ⟨hale,hset⟩ := h.programmed j hj
      refine ⟨?_,by rw [hpol,update_of_ne (classifier_ne hne)]; exact hset⟩
      rw [hobj]
      dsimp only
      rw [update_of_ne hne]
      exact hale

/-- Freeing the entry of an address keeps the invariant: no other entry
has the address. -/
theorem ClaimsInv.released (h : ClaimsInv s) (hi : getExclusiveMcastInfo s.obj a = some i)
    (hobj : s'.obj = { s.obj with
      exclusiveMcast := update s.obj.exclusiveMcast i
        { s.obj.exclusiveMcast i with isFree := true, refCnt := 0#32 }
      ale := update s.obj.ale a none })
    (hpol : s'.policers = update s.policers (classifier p.val a) false) : ClaimsInv s' := by
  rw [getExclusiveMcastInfo_eq_slotOf] at hi
  obtain ⟨hu,hm⟩ := live_of_slotOf hi
  have htable : s'.obj.exclusiveMcast = update s.obj.exclusiveMcast i
      { s.obj.exclusiveMcast i with isFree := true, refCnt := 0#32 } := by rw [hobj]
  have hother : ∀ j, inUse (s'.obj.exclusiveMcast j) = true →
      s'.obj.exclusiveMcast j = s.obj.exclusiveMcast j ∧ (s.obj.exclusiveMcast j).macAddr ≠ a := by
    intro j hj
    have hji : j ≠ i := by
      rintro rfl
      rw [htable,update_self,inUse_of_isFree rfl] at hj
      exact absurd hj Bool.false_ne_true
    rw [htable,update_of_ne hji] at hj ⊢
    exact ⟨rfl,fun hmac => hji (h.distinct j i hj hu (hmac.trans hm.symm))⟩
  refine ⟨?_,fun j hj => ?_,fun j hj => ?_⟩
  · rw [htable]
    exact distinct_clear h.distinct (inUse_of_isFree rfl)
  · have hshared : ∀ b, getSharedMcastInfo s'.obj b = getSharedMcastInfo s.obj b := by
      rw [hobj]
      exact fun _ => rfl
    obtain ⟨heq,-⟩ := hother j hj
    rw [hshared,heq]
    rw [heq] at hj
    exact h.notShared j hj
  · obtain ⟨heq,hne⟩ := hother j hj
    rw [heq] at hj ⊢
    obtain ⟨hale,hset⟩ := h.programmed j hj
    refine ⟨?_,by rw [hpol,update_of_ne (classifier_ne hne)]; exact hset⟩
    rw [hobj]
    dsimp only
    rw [update_of_ne hne]
    exact hale

/-- An add keeps the invariant and is right when its claim goes through. -/
theorem add_kept (h : ClaimsInv s) (hG : ClaimGoes s (.add p a v x)) :
    ClaimsInv (step s (.add p a v x)) ∧ AddOk s (.add p a v x) := by
  by_cases hx : Exclusive s.obj a v
  · by_cases ht : TakesEntry s.obj a v x
    · obtain ⟨i,-,-,hst,hgoes⟩ := filterAddMac_takes (p := p) ht
      obtain ⟨⟨mask,hobj⟩,hpol⟩ := hgoes (hG ht)
      have hnew : ClaimsInv (step s (.add p a v x)) ∧ Wire (step s (.add p a v x)) p.val a :=
        h.claimed hx ht.new hobj hpol
      exact ⟨hnew.1,fun _ => ⟨fun hfail => absurd (hst.mpr (hG ht)) hfail,fun _ => hnew.2⟩⟩
    · obtain ⟨hpol,⟨hst,hobj⟩ | ⟨i,hi,hp,heq⟩⟩ := filterAddMac_again (p := p) hx ht
      · refine ⟨h.of_same (sameClaims_of_obj hobj hpol),fun _ => ⟨fun _ => by rw [hobj],?_⟩⟩
        exact fun hok => absurd hok hst
      · have hsame : SameClaims s (step s (.add p a v x)) :=
          sameClaims_recount (congrArg Prod.snd heq) hpol
        rw [getExclusiveMcastInfo_eq_slotOf] at hi
        obtain ⟨hu,hm⟩ := live_of_slotOf hi
        have hwire := h.programmed i hu
        rw [hp,hm] at hwire
        refine ⟨h.of_same hsame,fun _ => ⟨fun hfail => ?_,fun _ => hwire.kept hsame hx.2⟩⟩
        exact absurd (congrArg Prod.fst heq) hfail
  · exact ⟨h.of_same (sameClaims_add hx),fun hx' => absurd hx' hx⟩

/-- Every delete keeps the invariant. -/
theorem del_kept (h : ClaimsInv s) : ClaimsInv (step s (.del p a v y)) := by
  by_cases hx : Exclusive s.obj a v
  · by_cases hrel : ∃ i, Releases s.obj p a v y i
    · obtain ⟨i,hi⟩ := hrel
      obtain ⟨hobj,hpol⟩ := filterDelMac_releases hi
      exact h.released hi.found hobj hpol
    · obtain ⟨hpol,hobj | ⟨i,n,hobj⟩⟩ := filterDelMac_keeps hx fun i hi => hrel ⟨i,hi⟩
      · exact h.of_same (sameClaims_of_obj hobj hpol)
      · exact h.of_same (sameClaims_recount hobj hpol)
  · exact h.of_same (sameClaims_del hx)

/-- A failing claim takes its entry all the same. -/
theorem not_addOk_of_failed (hG : ¬ ClaimGoes s (.add p a v x)) : ¬ AddOk s (.add p a v x) := by
  intro hok
  obtain ⟨ht,hfail⟩ := Classical.not_imp.mp hG
  obtain ⟨i,hfree,htable,hst,-⟩ := filterAddMac_takes (p := p) ht
  have hsame := (hok ht.exclusive).1 fun h => hfail (hst.mp h)
  have hentry : s.obj.exclusiveMcast i = ⟨a,p.val,1#32,false⟩ := by
    rw [← hsame,htable,update_self]
  rw [hentry] at hfree
  exact absurd hfree Bool.false_ne_true

/-- A call whose claim goes through keeps the invariant. -/
theorem claimsInv_step (s : Wired) (c : Call) (h : ClaimsInv s) (hG : ClaimGoes s c) :
    ClaimsInv (step s c) := by
  cases c with
  | add p a v x => exact (add_kept h hG).1
  | del p a v y => exact del_kept h
  | vepaUse vepa => exact h.of_same ⟨fun _ => ⟨rfl,rfl,rfl⟩,fun _ => rfl,rfl,fun _ _ => rfl⟩

/-- From the invariant, a call is right exactly when its claim goes
through. -/
theorem addOk_iff (s : Wired) (c : Call) (h : ClaimsInv s) : AddOk s c ↔ ClaimGoes s c := by
  cases c with
  | add p a v x =>
    constructor
    · intro hok
      by_contra hG
      exact not_addOk_of_failed hG hok
    · exact fun hG => (add_kept h hG).2
  | del p a v y => exact Iff.rfl
  | vepaUse vepa => exact Iff.rfl

theorem claimsInv_startUp (ale : MacAddr → Option U32) (vepa : Option VepaTable.VepaObj)
    (policers : Classifier → Bool) (shared : List McastCfg) (rsvd : List RsvdMcast) (m n : U32) :
    ClaimsInv (startUp ale vepa policers shared rsvd m n) := by
  have hfree : ∀ i,
      inUse ((startUp ale vepa policers shared rsvd m n).obj.exclusiveMcast i) ≠ true := by
    intro i hu
    rw [inUse_of_isFree rfl] at hu
    exact Bool.false_ne_true hu
  exact ⟨fun i _ hi => absurd hi (hfree i),fun i hi => absurd hi (hfree i),
    fun i hi => absurd hi (hfree i)⟩

end Runs

/-- In every run of the filter: every exclusive entry in use stands for an
address that the hardware has, failing adds leave the exclusive table alone
and successful ones have the address programmed, exactly when every add that
takes an entry has both its ioctls succeed. -/
theorem claims_programmed_iff (ale : MacAddr → Option U32) (vepa : Option VepaTable.VepaObj)
    (policers : Classifier → Bool) (shared : List McastCfg) (rsvd : List RsvdMcast)
    (switchPortMask macOnlyPortMask : U32) (calls : List Call) :
    Along step Programmed
          (startUp ale vepa policers shared rsvd switchPortMask macOnlyPortMask) calls ∧
        Guarded step AddOk
          (startUp ale vepa policers shared rsvd switchPortMask macOnlyPortMask) calls ↔
      Guarded step ClaimGoes
        (startUp ale vepa policers shared rsvd switchPortMask macOnlyPortMask) calls := by
  apply along_and_guarded_iff (I := ClaimsInv)
  · exact fun s h => h.programmed
  · exact claimsInv_step
  · intro s c h
    refine ⟨fun hright => (addOk_iff s c h).mp hright.2,fun hG => ⟨?_,(addOk_iff s c h).mpr hG⟩⟩
    exact (claimsInv_step s c h hG).programmed
  · exact claimsInv_startUp ale vepa policers shared rsvd switchPortMask macOnlyPortMask

/-- The ALE entry of a claim cannot be added, and the port adds the address
again: it succeeds without a hardware entry. -/
theorem failed_claim_then_success :
    ¬ (Along step Programmed
          (startUp (fun _ => none) none (fun _ => false) [] [] 0b1110#32 0b0001#32)
          [.add switchPort ownAddr 0#16 ⟨enotfound,efail,sok⟩,
            .add switchPort ownAddr 0#16 ⟨enotfound,sok,sok⟩] ∧
        Guarded step AddOk
          (startUp (fun _ => none) none (fun _ => false) [] [] 0b1110#32 0b0001#32)
          [.add switchPort ownAddr 0#16 ⟨enotfound,efail,sok⟩,
            .add switchPort ownAddr 0#16 ⟨enotfound,sok,sok⟩]) := by
  rintro ⟨-,-,hadd,-⟩
  have hwire := (hadd ⟨by decide,by decide⟩).2 (by decide)
  exact absurd hwire.2 (by decide)

end EthernetFirmware.McastClaims
