import EthernetFirmware.KeyedTables
import EthernetFirmware.McastOwnership

/-!
# Exclusive multicast addresses

An address that is neither shared nor reserved belongs to the port that
claimed it. The table of exclusive addresses is a table with keys; beside it
the state counts, for each port and address, the adds less the deletes that
succeeded. The owner's count is the reference count, as long as every
claim that takes an entry also goes through.
-/

namespace EthernetFirmware.McastExclusive

open Function SlotTables KeyedTables RemoteConfig McastFilter GuardedRuns
open McastOwnership (Event)

/-- The filter with the balance of every port and address. -/
structure Books where
  /-- Tables and hardware. -/
  obj : McastObj
  /-- Successful adds less successful deletes. -/
  balance : U32 × MacAddr → ℤ

/-- The books after a request that counts for `d`. -/
def post (s : Books) (virtPort : PortId) (macAddr : MacAddr) (d : ℤ) (r : Status × McastObj) :
    Books where
  obj := r.2
  balance :=
    if r.1 = sok then
      update s.balance (virtPort.val,macAddr) (s.balance (virtPort.val,macAddr) + d)
    else s.balance

/-- State after an event. -/
def step (s : Books) : Event → Books
  | .add virtPort macAddr vlanId relFlow isInVlan x => post s virtPort macAddr 1
    (filterAddMacHandlerCb s.obj virtPort macAddr vlanId relFlow isInVlan x)
  | .del virtPort macAddr vlanId isInVlan y => post s virtPort macAddr (-1)
    (filterDelMacHandlerCb s.obj virtPort macAddr vlanId isInVlan y)
  | .vepaUse vepa => { s with obj := { s.obj with vepa := s.obj.vepa.map fun _ => vepa } }

/-- An initialised filter with empty books. -/
def startUp (ale : MacAddr → Option U32) (vepa : Option VepaTable.VepaObj)
    (shared : List McastCfg) (rsvd : List RsvdMcast) (switchPortMask macOnlyPortMask : U32) :
    Books where
  obj := (init (zeroed ale vepa) shared rsvd switchPortMask macOnlyPortMask).2
  balance := fun _ => 0

/-- An exclusive entry is in use. -/
def inUse (e : ExclusiveMcastInfo) : Bool := !e.isFree

/-- The address is in the reserved table, on whatever VLAN. -/
def Reserved (o : McastObj) (a : MacAddr) : Prop :=
  ∃ k, k.val < o.rsvdLen ∧ (o.rsvdMcast k).macAddr = a

/-- The exclusive table agrees with the books. -/
structure ExclusiveOk (s : Books) : Prop where
  /-- An address has one entry. -/
  distinct : Distinct inUse ExclusiveMcastInfo.macAddr s.obj.exclusiveMcast
  /-- The reference count is positive and the owner's balance. -/
  counted : ∀ i, inUse (s.obj.exclusiveMcast i) = true →
    1 ≤ (s.obj.exclusiveMcast i).refCnt.toNat ∧
    ((s.obj.exclusiveMcast i).refCnt.toNat : ℤ) =
      s.balance ((s.obj.exclusiveMcast i).virtPort,(s.obj.exclusiveMcast i).macAddr)
  /-- The address is not shared. -/
  notShared : ∀ i, inUse (s.obj.exclusiveMcast i) = true →
    getSharedMcastInfo s.obj (s.obj.exclusiveMcast i).macAddr = none
  /-- The address is not reserved. -/
  notRsvd : ∀ i, inUse (s.obj.exclusiveMcast i) = true →
    ¬ Reserved s.obj (s.obj.exclusiveMcast i).macAddr

/-- Another port has claimed the address. -/
def ClaimedByOther (o : McastObj) (p : PortId) (a : MacAddr) : Prop :=
  ∃ i, inUse (o.exclusiveMcast i) = true ∧ (o.exclusiveMcast i).macAddr = a ∧
    (o.exclusiveMcast i).virtPort ≠ p.val

/-- Any port can claim the address on a VLAN it is not reserved on. -/
def Claimable (o : McastObj) (a : MacAddr) : Prop :=
  ∀ p v, isRsvdMcast o a v = false →
    (filterAddMac o p a v ⟨enotfound,sok,sok⟩).1 = sok ∧
    ∃ i, (filterAddMac o p a v ⟨enotfound,sok,sok⟩).2.exclusiveMcast i = ⟨a,p.val,1#32,false⟩

/-- A request for an address that another port has claimed is refused and
changes nothing. An entry whose count returns to zero is free, and any port
can claim the address. -/
def EventOk (s : Books) : Event → Prop
  | .add p a vlanId relFlow isInVlan x => ClaimedByOther s.obj p a →
    (filterAddMacHandlerCb s.obj p a vlanId relFlow isInVlan x).1 ≠ sok ∧
    (filterAddMacHandlerCb s.obj p a vlanId relFlow isInVlan x).2 = s.obj
  | .del p a vlanId isInVlan y =>
    (ClaimedByOther s.obj p a →
      (filterDelMacHandlerCb s.obj p a vlanId isInVlan y).1 ≠ sok ∧
      (filterDelMacHandlerCb s.obj p a vlanId isInVlan y).2 = s.obj) ∧
    ∀ i, inUse (s.obj.exclusiveMcast i) = true → (s.obj.exclusiveMcast i).macAddr = a →
      ((filterDelMacHandlerCb s.obj p a vlanId isInVlan y).2.exclusiveMcast i).refCnt = 0#32 →
      ((filterDelMacHandlerCb s.obj p a vlanId isInVlan y).2.exclusiveMcast i).isFree = true ∧
      Claimable (filterDelMacHandlerCb s.obj p a vlanId isInVlan y).2 a
  | .vepaUse _ => True

/-- A request reaches the exclusive table: the handler's checks pass and the
address is neither reserved on the VLAN nor shared. -/
structure ReachesExclusive (o : McastObj) (r : Status × U16) (a : MacAddr) : Prop where
  /-- The checks of the handler pass. -/
  admitted : r.1 = sok
  /-- The address is not reserved on the VLAN. -/
  notRsvd : isRsvdMcast o a r.2 = false
  /-- The address is not shared. -/
  notShared : getSharedMcastInfo o a = none

/-- When an event keeps the exclusive table right. -/
def KeepsExclusive (s : Books) : Event → Prop
  | .add p a vlanId relFlow isInVlan x =>
    ReachesExclusive s.obj (requestVlan (flowStatus relFlow) a vlanId isInVlan) a →
      (∀ i, getExclusiveMcastInfo s.obj a = some i →
        (s.obj.exclusiveMcast i).virtPort = p.val →
        (s.obj.exclusiveMcast i).refCnt ≠ 0xFFFFFFFF#32) ∧
      (getExclusiveMcastInfo s.obj a = none → x.lookupMcast = enotfound →
        (∃ i, (s.obj.exclusiveMcast i).isFree = true) →
        x.addMcast = sok ∧ x.setPolicer = sok ∧ ¬ Reserved s.obj a)
  | .del _ _ _ _ _ => True
  | .vepaUse _ => True

section Requests

variable {o : McastObj} {p : PortId} {a : MacAddr} {v : U16} {x : AddOutcomes} {y : DelOutcomes}

/-- The look-up of the code is that of a table with keys. -/
theorem getExclusiveMcastInfo_eq_slotOf :
    getExclusiveMcastInfo o a = slotOf inUse ExclusiveMcastInfo.macAddr o.exclusiveMcast a := rfl

/-- A claim: refused, or a free entry is taken, and it goes through exactly
when both ioctls do. -/
theorem filterAddMacExcl_cases (o : McastObj) (p : PortId) (a : MacAddr) (x : AddOutcomes) :
    ((x.lookupMcast = enotfound → ∀ i, (o.exclusiveMcast i).isFree = false) ∧
      (filterAddMacExcl o p a x).1 ≠ sok ∧ (filterAddMacExcl o p a x).2 = o) ∨
    (x.lookupMcast = enotfound ∧ ∃ i, (o.exclusiveMcast i).isFree = true ∧
      ((filterAddMacExcl o p a x).1 = sok ↔ x.addMcast = sok ∧ x.setPolicer = sok) ∧
      ∃ ale, (filterAddMacExcl o p a x).2 = { o with
        exclusiveMcast := update o.exclusiveMcast i ⟨a,p.val,1#32,false⟩, ale := ale }) := by
  unfold filterAddMacExcl
  by_cases hfound : x.lookupMcast = sok
  · rw [if_pos hfound]
    refine .inl ⟨fun hno => ?_,ebusy_ne_sok,rfl⟩
    rw [hfound] at hno
    exact absurd hno (by decide)
  rw [if_neg hfound]
  by_cases hno : x.lookupMcast = enotfound
  · rw [if_neg (not_not.mpr hno)]
    cases hslot : firstSlot ExclusiveMcastInfo.isFree o.exclusiveMcast with
    | none => exact .inl ⟨fun _ => firstSlot_eq_none_iff.mp hslot,ealloc_ne_sok,rfl⟩
    | some i =>
      refine .inr ⟨hno,i,(firstSlot_eq_some_iff.mp hslot).1,?_⟩
      dsimp only
      by_cases hadd : x.addMcast = sok
      · rw [hadd,addMcastEntry_ok,if_pos rfl]
        exact ⟨(and_iff_right rfl).symm,_,rfl⟩
      · rw [addMcastEntry_failed hadd,if_neg hadd]
        exact ⟨iff_of_false hadd fun h => hadd h.1,_,rfl⟩
  · rw [if_pos hno]
    exact .inl ⟨fun h => absurd h hno,hfound,rfl⟩

/-- What an add of an address that is neither reserved nor shared does. -/
inductive AddEffect (o : McastObj) (p : PortId) (a : MacAddr) (x : AddOutcomes) :
    Status × McastObj → Prop where
  /-- The owner adds it again. -/
  | again (i : Fin exclusiveMcastListLen) : getExclusiveMcastInfo o a = some i →
      (o.exclusiveMcast i).virtPort = p.val →
      AddEffect o p a x
        (sok,setExclusive o i fun e => { e with refCnt := e.refCnt + 1#32 })
  /-- Another port owns it. -/
  | other (i : Fin exclusiveMcastListLen) (st : Status) : getExclusiveMcastInfo o a = some i →
      (o.exclusiveMcast i).virtPort ≠ p.val → st ≠ sok → AddEffect o p a x (st,o)
  /-- It cannot be claimed. -/
  | refused (st : Status) : getExclusiveMcastInfo o a = none →
      (x.lookupMcast = enotfound → ∀ i, (o.exclusiveMcast i).isFree = false) → st ≠ sok →
      AddEffect o p a x (st,o)
  /-- A free entry is taken. -/
  | claimed (i : Fin exclusiveMcastListLen) (st : Status) (ale : MacAddr → Option U32) :
      getExclusiveMcastInfo o a = none → x.lookupMcast = enotfound →
      (o.exclusiveMcast i).isFree = true →
      (st = sok ↔ x.addMcast = sok ∧ x.setPolicer = sok) →
      AddEffect o p a x (st,{ o with
        exclusiveMcast := update o.exclusiveMcast i ⟨a,p.val,1#32,false⟩, ale := ale })

theorem filterAddMac_effect (hr : isRsvdMcast o a v = false)
    (hs : getSharedMcastInfo o a = none) : AddEffect o p a x (filterAddMac o p a v x) := by
  unfold filterAddMac
  rw [hr,hs,if_neg Bool.false_ne_true]
  dsimp only
  cases hi : getExclusiveMcastInfo o a with
  | some i =>
    dsimp only
    by_cases hp : (o.exclusiveMcast i).virtPort = p.val
    · rw [if_pos hp]
      exact .again i hi hp
    · rw [if_neg hp]
      exact .other i efail hi hp efail_ne_sok
  | none =>
    rcases filterAddMacExcl_cases o p a x with ⟨hfull,hst,hobj⟩ | ⟨hno,i,hfree,hst,ale,hobj⟩
    · have heq : filterAddMacExcl o p a x = ((filterAddMacExcl o p a x).1,o) :=
        Prod.ext rfl hobj
      dsimp only
      rw [heq]
      exact .refused _ hi hfull hst
    · have heq : filterAddMacExcl o p a x = ((filterAddMacExcl o p a x).1,{ o with
          exclusiveMcast := update o.exclusiveMcast i ⟨a,p.val,1#32,false⟩, ale := ale }) :=
        Prod.ext rfl hobj
      dsimp only
      rw [heq]
      exact .claimed i _ ale hi hno hfree hst

/-- What a delete of an address that is neither reserved nor shared does. -/
inductive DelEffect (o : McastObj) (p : PortId) (a : MacAddr) : Status × McastObj → Prop where
  /-- It fails. -/
  | failed (st : Status) : st ≠ sok → DelEffect o p a (st,o)
  /-- The entry has no reference to give back. -/
  | idle (i : Fin exclusiveMcastListLen) : getExclusiveMcastInfo o a = some i →
      (o.exclusiveMcast i).refCnt = 0#32 → DelEffect o p a (sok,o)
  /-- The owner gives one of several references back. -/
  | one (i : Fin exclusiveMcastListLen) : getExclusiveMcastInfo o a = some i →
      (o.exclusiveMcast i).virtPort = p.val → 1#32 < (o.exclusiveMcast i).refCnt →
      DelEffect o p a (sok,setExclusive o i fun e => { e with refCnt := e.refCnt - 1#32 })
  /-- The owner gives the last reference back. -/
  | last (i : Fin exclusiveMcastListLen) (ale : MacAddr → Option U32) :
      getExclusiveMcastInfo o a = some i →
      (o.exclusiveMcast i).virtPort = p.val → (o.exclusiveMcast i).refCnt = 1#32 →
      DelEffect o p a (sok,{ o with
        exclusiveMcast := update o.exclusiveMcast i
          { o.exclusiveMcast i with isFree := true, refCnt := 0#32 }
        ale := ale })

theorem filterDelMac_effect (hr : isRsvdMcast o a v = false)
    (hs : getSharedMcastInfo o a = none) : DelEffect o p a (filterDelMac o p a v y) := by
  unfold filterDelMac
  rw [hr,hs,if_neg Bool.false_ne_true]
  dsimp only
  cases hi : getExclusiveMcastInfo o a with
  | none => exact .failed efail efail_ne_sok
  | some i =>
    dsimp only
    by_cases hp : (o.exclusiveMcast i).virtPort = p.val
    · rw [if_pos hp]
      by_cases hmany : 1#32 < (o.exclusiveMcast i).refCnt
      · rw [if_pos hmany]
        exact .one i hi hp hmany
      rw [if_neg hmany]
      by_cases hone : (o.exclusiveMcast i).refCnt = 1#32
      · rw [if_pos hone]
        unfold filterDelMacExcl
        by_cases hpol : y.delPolicer = sok
        · rw [hpol,removeEntry_ok,if_pos rfl]
          exact .last i _ hi hp hone
        · rw [removeEntry_failed hpol,if_neg hpol]
          have hsame : setExclusive o i (fun e => { e with refCnt := 1#32 }) = o := by
            unfold setExclusive
            rw [← hone,update_eq_self]
          dsimp only
          rw [hsame]
          exact .failed _ hpol
      · rw [if_neg hone]
        refine .idle i hi ?_
        bv_omega
    · rw [if_neg hp]
      exact .failed efail efail_ne_sok

end Requests

section Books

variable {s s' : Books} {o : McastObj} {i j : Fin exclusiveMcastListLen} {e : ExclusiveMcastInfo}
  {a : MacAddr} {k : U32 × MacAddr}

theorem inUse_of_isFree (h : e.isFree = true) : inUse e = false := by
  unfold inUse
  rw [h,Bool.not_true]

/-- What the exclusive table needs of the other two. -/
structure SameLists (o o' : McastObj) : Prop where
  /-- The same addresses are shared. -/
  shared : ∀ b, getSharedMcastInfo o' b = getSharedMcastInfo o b
  /-- The same addresses are reserved. -/
  rsvd : ∀ b, Reserved o' b ↔ Reserved o b

/-- An event changes one entry and the balance of one port and address. -/
structure Touches (s s' : Books) (i : Fin exclusiveMcastListLen) (e : ExclusiveMcastInfo)
    (k : U32 × MacAddr) : Prop where
  /-- The new table. -/
  table : s'.obj.exclusiveMcast = update s.obj.exclusiveMcast i e
  /-- The other tables hold the same addresses. -/
  lists : SameLists s.obj s'.obj
  /-- The other balances are the same. -/
  others : ∀ l, l ≠ k → s'.balance l = s.balance l

theorem Touches.entry_self (h : Touches s s' i e k) : s'.obj.exclusiveMcast i = e := by
  rw [h.table,update_self]

theorem Touches.entry_of_ne (h : Touches s s' i e k) (hj : j ≠ i) :
    s'.obj.exclusiveMcast j = s.obj.exclusiveMcast j := by
  rw [h.table,update_of_ne hj]

/-- A port without an entry for an address has balance zero. -/
def IdleZero (s : Books) : Prop :=
  ∀ q a, getSharedMcastInfo s.obj a = none →
    (∀ i, inUse (s.obj.exclusiveMcast i) = true → (s.obj.exclusiveMcast i).macAddr = a →
      (s.obj.exclusiveMcast i).virtPort ≠ q) →
    s.balance (q,a) = 0

/-- What every event that keeps the exclusive table right keeps. -/
structure BooksInv (s : Books) : Prop where
  /-- The table agrees with the books. -/
  ok : ExclusiveOk s
  /-- Balances of ports without an entry are zero. -/
  idle : IdleZero s

/-- Nothing changes for the exclusive table. -/
theorem BooksInv.of_same (h : BooksInv s)
    (ht : s'.obj.exclusiveMcast = s.obj.exclusiveMcast) (hl : SameLists s.obj s'.obj)
    (hb : ∀ q b, getSharedMcastInfo s.obj b = none → s'.balance (q,b) = s.balance (q,b)) :
    BooksInv s' := by
  constructor
  · refine ⟨by rw [ht]; exact h.ok.distinct,fun j hj => ?_,fun j hj => ?_,fun j hj => ?_⟩
    · rw [ht] at hj ⊢
      rw [hb _ _ (h.ok.notShared j hj)]
      exact h.ok.counted j hj
    · rw [ht] at hj ⊢
      rw [hl.shared]
      exact h.ok.notShared j hj
    · rw [ht] at hj ⊢
      rw [hl.rsvd]
      exact h.ok.notRsvd j hj
  · intro q b hs hno
    rw [hl.shared] at hs
    rw [ht] at hno
    rw [hb q b hs]
    exact h.idle q b hs hno

/-- Only the entry that an event changes needs a look, when the balance it
changes is not that of another entry. -/
theorem exclusiveOk_iff_of_touches (h : ExclusiveOk s) (hT : Touches s s' i e k)
    (hk : ∀ j, j ≠ i → inUse (s.obj.exclusiveMcast j) = true →
      ((s.obj.exclusiveMcast j).virtPort,(s.obj.exclusiveMcast j).macAddr) ≠ k) :
    ExclusiveOk s' ↔ Distinct inUse ExclusiveMcastInfo.macAddr s'.obj.exclusiveMcast ∧
      (inUse e = true → (1 ≤ e.refCnt.toNat ∧
        (e.refCnt.toNat : ℤ) = s'.balance (e.virtPort,e.macAddr)) ∧
        getSharedMcastInfo s.obj e.macAddr = none ∧ ¬ Reserved s.obj e.macAddr) := by
  constructor
  · intro hok
    refine ⟨hok.distinct,fun he => ?_⟩
    rw [← hT.entry_self] at he
    have hc := hok.counted i he
    have hs := hok.notShared i he
    have hr := hok.notRsvd i he
    rw [hT.entry_self] at hc hs hr
    exact ⟨hc,(hT.lists.shared _).symm.trans hs,fun hn => hr ((hT.lists.rsvd _).mpr hn)⟩
  · rintro ⟨hd,he⟩
    have hself : ∀ j, j = i → s'.obj.exclusiveMcast j = e := by
      rintro j rfl
      exact hT.entry_self
    refine ⟨hd,fun j hj => ?_,fun j hj => ?_,fun j hj => ?_⟩
    · by_cases hji : j = i
      · rw [hself j hji] at hj ⊢
        exact (he hj).1
      · rw [hT.entry_of_ne hji] at hj ⊢
        rw [hT.others _ (hk j hji hj)]
        exact h.counted j hj
    · rw [hT.lists.shared]
      by_cases hji : j = i
      · rw [hself j hji] at hj ⊢
        exact (he hj).2.1
      · rw [hT.entry_of_ne hji] at hj ⊢
        exact h.notShared j hj
    · rw [hT.lists.rsvd]
      by_cases hji : j = i
      · rw [hself j hji] at hj ⊢
        exact (he hj).2.2
      · rw [hT.entry_of_ne hji] at hj ⊢
        exact h.notRsvd j hj

/-- An entry changed under its own owner and address keeps the table right
exactly when its count is the new balance. -/
theorem exclusiveOk_rewrite_iff (h : ExclusiveOk s) (hT : Touches s s' i e k)
    (hk : (e.virtPort,e.macAddr) = k) (hi : inUse (s.obj.exclusiveMcast i) = true)
    (he : inUse e = true) (hm : e.macAddr = (s.obj.exclusiveMcast i).macAddr) :
    ExclusiveOk s' ↔ 1 ≤ e.refCnt.toNat ∧ (e.refCnt.toNat : ℤ) = s'.balance k := by
  have hd : Distinct inUse ExclusiveMcastInfo.macAddr s'.obj.exclusiveMcast := by
    rw [hT.table]
    exact distinct_rewrite h.distinct hi hm
  rw [exclusiveOk_iff_of_touches h hT,and_iff_right hd,imp_iff_right he,hk]
  · refine and_iff_left ?_
    rw [hm]
    exact ⟨h.notShared i hi,h.notRsvd i hi⟩
  · rw [← hk]
    intro j hji hj heq
    exact hji (h.distinct j i hj hi ((Prod.ext_iff.mp heq).2.trans hm))

/-- A free entry that is filled keeps the table right exactly when its count
is the new balance and the address is not reserved. -/
theorem exclusiveOk_fill_iff (h : ExclusiveOk s) (hT : Touches s s' i e k)
    (hk : (e.virtPort,e.macAddr) = k) (he : inUse e = true)
    (hnew : getExclusiveMcastInfo s.obj e.macAddr = none)
    (hs : getSharedMcastInfo s.obj e.macAddr = none) :
    ExclusiveOk s' ↔ (1 ≤ e.refCnt.toNat ∧ (e.refCnt.toNat : ℤ) = s'.balance k) ∧
      ¬ Reserved s.obj e.macAddr := by
  rw [getExclusiveMcastInfo_eq_slotOf,slotOf_eq_none_iff] at hnew
  have hd : Distinct inUse ExclusiveMcastInfo.macAddr s'.obj.exclusiveMcast := by
    rw [hT.table]
    exact distinct_fill h.distinct (entryOf_eq_none_iff.mpr hnew)
  rw [exclusiveOk_iff_of_touches h hT,and_iff_right hd,imp_iff_right he,and_iff_right hs,hk]
  rw [← hk]
  intro j _ hj heq
  exact hnew j hj (Prod.ext_iff.mp heq).2

/-- Freeing an entry keeps the table right. -/
theorem exclusiveOk_clear (h : ExclusiveOk s) (hi : inUse (s.obj.exclusiveMcast i) = true)
    (he : inUse e = false)
    (hT : Touches s s' i e
      ((s.obj.exclusiveMcast i).virtPort,(s.obj.exclusiveMcast i).macAddr)) :
    ExclusiveOk s' := by
  refine (exclusiveOk_iff_of_touches h hT ?_).mpr ⟨?_,fun hu => ?_⟩
  · intro j hji hj heq
    exact hji (h.distinct j i hj hi (Prod.ext_iff.mp heq).2)
  · rw [hT.table]
    exact distinct_clear h.distinct he
  · rw [he] at hu
    exact absurd hu Bool.false_ne_true

/-- Balances of ports without an entry stay zero when the entry changed is
in use afterwards, or its balance is. -/
theorem idleZero_of_touches (h : IdleZero s) (hT : Touches s s' i e k)
    (hold : inUse (s.obj.exclusiveMcast i) = true →
      ((s.obj.exclusiveMcast i).virtPort,(s.obj.exclusiveMcast i).macAddr) = k)
    (hnew : (inUse e = true ∧ (e.virtPort,e.macAddr) = k) ∨ s'.balance k = 0) :
    IdleZero s' := by
  intro q b hs hno
  by_cases hk : (q,b) = k
  · rcases hnew with ⟨he,hek⟩ | hz
    · have hqb := hek.trans hk.symm
      have hself := hT.entry_self
      refine absurd (Prod.ext_iff.mp hqb).1 ?_
      rw [← hself]
      refine hno i (by rw [hself]; exact he) ?_
      rw [hself]
      exact (Prod.ext_iff.mp hqb).2
    · rw [hk]
      exact hz
  · rw [hT.others _ hk]
    rw [hT.lists.shared] at hs
    refine h q b hs fun j hj hmac hport => ?_
    by_cases hji : j = i
    · subst hji
      refine hk (.trans ?_ (hold hj))
      rw [hmac,hport]
    · have hsame := hT.entry_of_ne hji
      exact hno j (by rw [hsame]; exact hj) (by rw [hsame]; exact hmac)
        (by rw [hsame]; exact hport)

/-- A request that does not reach the exclusive table. -/
structure Bypasses (o : McastObj) (a : MacAddr) (r : Status × McastObj) : Prop where
  /-- The exclusive table is the same. -/
  table : r.2.exclusiveMcast = o.exclusiveMcast
  /-- The other tables hold the same addresses. -/
  lists : SameLists o r.2
  /-- Only a request for a shared address goes through or changes anything. -/
  quiet : getSharedMcastInfo o a = none → r.1 ≠ sok ∧ r.2 = o

theorem bypasses_failed {st : Status} (h : st ≠ sok) : Bypasses o a (st,o) :=
  ⟨rfl,⟨fun _ => rfl,fun _ => Iff.rfl⟩,fun _ => ⟨h,rfl⟩⟩

/-- The shared table holds the same addresses with another count. -/
theorem sameLists_setRefCnt (i : Fin sharedMcastListLen) (n : U32) (ale : MacAddr → Option U32)
    (vepa : Option VepaTable.VepaObj) :
    SameLists o { setRefCnt o i n with ale := ale, vepa := vepa } := by
  refine ⟨fun b => getSharedMcastInfo_congr rfl fun j => ?_,fun _ => Iff.rfl⟩
  by_cases hj : j = i
  · subst hj
    simp [setRefCnt]
  · simp [setRefCnt,hj]

variable {p : PortId} {v : U16} {x : AddOutcomes} {y : DelOutcomes} {r : Status × McastObj} {d : ℤ}

theorem filterAddMac_bypasses {m : Fin sharedMcastListLen} (hr : isRsvdMcast o a v = false)
    (hm : getSharedMcastInfo o a = some m) : Bypasses o a (filterAddMac o p a v x) := by
  have hshared : getSharedMcastInfo o a ≠ none := by
    rw [hm]
    exact Option.some_ne_none m
  by_cases hg : AddGoes o m x
  · obtain ⟨vepa,heq⟩ := filterAddMac_goes (p := p) hr hm hg
    rw [heq]
    exact ⟨rfl,sameLists_setRefCnt ..,fun h => absurd h hshared⟩
  · obtain ⟨-,hobj⟩ := filterAddMac_fails (p := p) hr hm hg
    refine ⟨by rw [hobj],?_,fun h => absurd h hshared⟩
    rw [hobj]
    exact ⟨fun _ => rfl,fun _ => Iff.rfl⟩

theorem filterDelMac_bypasses {m : Fin sharedMcastListLen} (hr : isRsvdMcast o a v = false)
    (hm : getSharedMcastInfo o a = some m) : Bypasses o a (filterDelMac o p a v y) := by
  have hshared : getSharedMcastInfo o a ≠ none := by
    rw [hm]
    exact Option.some_ne_none m
  by_cases hg : VepaKnown o a v ∧ DelGoes o m y
  · obtain ⟨vepa,heq⟩ := filterDelMac_goes (p := p) hr hm hg.1 hg.2
    rw [heq]
    exact ⟨rfl,sameLists_setRefCnt ..,fun h => absurd h hshared⟩
  · obtain ⟨-,vepa,hobj⟩ := filterDelMac_fails (p := p) hr hm hg
    refine ⟨by rw [hobj],?_,fun h => absurd h hshared⟩
    rw [hobj]
    exact ⟨fun _ => rfl,fun _ => Iff.rfl⟩

/-- A request to add bypasses the exclusive table, or reaches it. -/
theorem filterAddMacHandlerCb_cases (o : McastObj) (p : PortId) (a : MacAddr) (vlanId : U16)
    (relFlow : Status × U32) (isInVlan : Bool) (x : AddOutcomes) :
    (¬ ReachesExclusive o (requestVlan (flowStatus relFlow) a vlanId isInVlan) a ∧
      Bypasses o a (filterAddMacHandlerCb o p a vlanId relFlow isInVlan x)) ∨
    (ReachesExclusive o (requestVlan (flowStatus relFlow) a vlanId isInVlan) a ∧
      AddEffect o p a x (filterAddMacHandlerCb o p a vlanId relFlow isInVlan x)) := by
  unfold filterAddMacHandlerCb
  dsimp only
  generalize requestVlan (flowStatus relFlow) a vlanId isInVlan = req
  by_cases hadm : req.1 = sok
  · rw [if_pos hadm]
    cases hr : isRsvdMcast o a req.2 with
    | true =>
      rw [filterAddMac_reserved hr]
      refine .inl ⟨fun h => absurd (h.notRsvd.symm.trans hr) Bool.false_ne_true,?_⟩
      exact bypasses_failed ebadArgs_ne_sok
    | false =>
      cases hm : getSharedMcastInfo o a with
      | some m =>
        refine .inl ⟨fun h => ?_,filterAddMac_bypasses hr hm⟩
        exact absurd (hm.symm.trans h.notShared) (Option.some_ne_none m)
      | none => exact .inr ⟨⟨hadm,hr,hm⟩,filterAddMac_effect hr hm⟩
  · rw [if_neg hadm]
    exact .inl ⟨fun h => hadm h.admitted,bypasses_failed hadm⟩

/-- A request to delete bypasses the exclusive table, or reaches it. -/
theorem filterDelMacHandlerCb_cases (o : McastObj) (p : PortId) (a : MacAddr) (vlanId : U16)
    (isInVlan : Bool) (y : DelOutcomes) :
    Bypasses o a (filterDelMacHandlerCb o p a vlanId isInVlan y) ∨
    (getSharedMcastInfo o a = none ∧
      DelEffect o p a (filterDelMacHandlerCb o p a vlanId isInVlan y)) := by
  unfold filterDelMacHandlerCb
  dsimp only
  generalize requestVlan sok a vlanId isInVlan = req
  by_cases hadm : req.1 = sok
  · rw [if_pos hadm]
    cases hr : isRsvdMcast o a req.2 with
    | true =>
      rw [filterDelMac_reserved hr]
      exact .inl (bypasses_failed ebadArgs_ne_sok)
    | false =>
      cases hm : getSharedMcastInfo o a with
      | some m => exact .inl (filterDelMac_bypasses hr hm)
      | none => exact .inr ⟨rfl,filterDelMac_effect hr hm⟩
  · rw [if_neg hadm]
    exact .inl (bypasses_failed hadm)

theorem post_balance_of_ne {l : U32 × MacAddr} (h : l ≠ (p.val,a)) :
    (post s p a d r).balance l = s.balance l := by
  unfold post
  dsimp only
  split
  · exact update_of_ne h ..
  · rfl

theorem post_balance_failed (h : r.1 ≠ sok) : (post s p a d r).balance = s.balance := if_neg h

theorem post_balance_self (h : r.1 = sok) :
    (post s p a d r).balance (p.val,a) = s.balance (p.val,a) + d := by
  unfold post
  dsimp only
  rw [if_pos h,update_self]

/-- A request that bypasses the exclusive table keeps the books right. -/
theorem BooksInv.bypassed (h : BooksInv s) (hr : Bypasses s.obj a r) :
    BooksInv (post s p a d r) := by
  refine h.of_same hr.table hr.lists fun q b hb => ?_
  by_cases hq : (q,b) = (p.val,a)
  · obtain rfl : b = a := (Prod.ext_iff.mp hq).2
    rw [post_balance_failed (hr.quiet hb).1]
  · exact post_balance_of_ne hq

/-- It also leaves a claimed address alone. -/
theorem refused_of_bypassed (h : ExclusiveOk s) (hr : Bypasses s.obj a r)
    (hc : ClaimedByOther s.obj p a) : r.1 ≠ sok ∧ r.2 = s.obj := by
  obtain ⟨i,hi,hmac,-⟩ := hc
  have hs := h.notShared i hi
  rw [hmac] at hs
  exact hr.quiet hs

/-- An entry that is found is in use and the only one of its address. -/
theorem found_unique (h : ExclusiveOk s) (hi : getExclusiveMcastInfo s.obj a = some i)
    (hj : inUse (s.obj.exclusiveMcast j) = true) (hm : (s.obj.exclusiveMcast j).macAddr = a) :
    j = i := by
  rw [getExclusiveMcastInfo_eq_slotOf] at hi
  obtain ⟨hu,hk⟩ := live_of_slotOf hi
  exact h.distinct j i hj hu (hm.trans hk.symm)

theorem not_claimedByOther_of_none (hi : getExclusiveMcastInfo o a = none) :
    ¬ ClaimedByOther o p a := by
  rintro ⟨j,hj,hm,-⟩
  rw [getExclusiveMcastInfo_eq_slotOf,slotOf_eq_none_iff] at hi
  exact hi j hj hm

theorem not_claimedByOther_of_owner (h : ExclusiveOk s)
    (hi : getExclusiveMcastInfo s.obj a = some i)
    (hp : (s.obj.exclusiveMcast i).virtPort = p.val) : ¬ ClaimedByOther s.obj p a := by
  rintro ⟨j,hj,hm,hne⟩
  obtain rfl := found_unique h hi hj hm
  exact hne hp

/-- The entry that a request for an address changes. -/
theorem touches_post (s : Books) (p : PortId) (a : MacAddr) (d : ℤ)
    (i : Fin exclusiveMcastListLen) (e : ExclusiveMcastInfo) (ale : MacAddr → Option U32)
    (vepa : Option VepaTable.VepaObj) (st : Status) :
    Touches s (post s p a d (st,{ s.obj with
      exclusiveMcast := update s.obj.exclusiveMcast i e, ale := ale, vepa := vepa })) i e
      (p.val,a) :=
  ⟨rfl,⟨fun _ => rfl,fun _ => Iff.rfl⟩,fun _ hl => post_balance_of_ne hl⟩

/-- One reference more is counted unless the count wraps around. -/
theorem counted_succ_iff {n : U32} {z : ℤ} (hn : 1 ≤ n.toNat ∧ (n.toNat : ℤ) = z) :
    1 ≤ (n + 1#32).toNat ∧ ((n + 1#32).toNat : ℤ) = z + 1 ↔ n ≠ 0xFFFFFFFF#32 := by
  rw [← toNat_succ_iff]
  generalize (n + 1#32).toNat = m
  omega

/-- One reference of several less is counted. -/
theorem counted_pred {n : U32} {z : ℤ} (hn : (n.toNat : ℤ) = z) (hmany : 1#32 < n) :
    1 ≤ (n - 1#32).toNat ∧ ((n - 1#32).toNat : ℤ) = z + -1 := by
  have hlt : 1 < n.toNat := by bv_omega
  have hpos : n ≠ 0#32 := by bv_omega
  rw [toNat_pred hpos]
  omega

/-- The entry of an address that a port owns is in use, under the key of port
and address. -/
theorem owned_entry {o : McastObj} (hi : getExclusiveMcastInfo o a = some i)
    (hp : (o.exclusiveMcast i).virtPort = p.val) :
    inUse (o.exclusiveMcast i) = true ∧
      ((o.exclusiveMcast i).virtPort,(o.exclusiveMcast i).macAddr) = (p.val,a) := by
  obtain ⟨hu,hm⟩ := live_of_slotOf (getExclusiveMcastInfo_eq_slotOf (o := o) ▸ hi)
  exact ⟨hu,by rw [hp,hm]⟩

/-- The owner's next add keeps the table right unless the count wraps
around. -/
theorem again_exact (h : BooksInv s) (hi : getExclusiveMcastInfo s.obj a = some i)
    (hp : (s.obj.exclusiveMcast i).virtPort = p.val) :
    (ExclusiveOk (post s p a 1 (sok,setExclusive s.obj i fun e => { e with
        refCnt := e.refCnt + 1#32 })) ↔ (s.obj.exclusiveMcast i).refCnt ≠ 0xFFFFFFFF#32) ∧
      IdleZero (post s p a 1 (sok,setExclusive s.obj i fun e => { e with
        refCnt := e.refCnt + 1#32 })) := by
  obtain ⟨hu,hk⟩ := owned_entry hi hp
  have hT := touches_post s p a 1 i
    { s.obj.exclusiveMcast i with refCnt := (s.obj.exclusiveMcast i).refCnt + 1#32 }
    s.obj.ale s.obj.vepa sok
  have hc := h.ok.counted i hu
  rw [hk] at hc
  constructor
  · refine (exclusiveOk_rewrite_iff h.ok hT hk hu hu rfl).trans ?_
    rw [post_balance_self rfl]
    exact counted_succ_iff hc
  · exact idleZero_of_touches h.idle hT (fun _ => hk) (.inl ⟨hu,hk⟩)

/-- A claim keeps the table right exactly when it goes through and the
address is not reserved. -/
theorem claimed_exact (p : PortId) (st : Status) (ale : MacAddr → Option U32) (h : BooksInv s)
    (hi : getExclusiveMcastInfo s.obj a = none) (hs : getSharedMcastInfo s.obj a = none)
    (hfree : (s.obj.exclusiveMcast i).isFree = true) :
    (ExclusiveOk (post s p a 1 (st,{ s.obj with
        exclusiveMcast := update s.obj.exclusiveMcast i ⟨a,p.val,1#32,false⟩, ale := ale })) ↔
      st = sok ∧ ¬ Reserved s.obj a) ∧
      IdleZero (post s p a 1 (st,{ s.obj with
        exclusiveMcast := update s.obj.exclusiveMcast i ⟨a,p.val,1#32,false⟩, ale := ale })) := by
  have hT := touches_post s p a 1 i ⟨a,p.val,1#32,false⟩ ale s.obj.vepa st
  have hzero : s.balance (p.val,a) = 0 := by
    refine h.idle p.val a hs fun j hj hm => ?_
    rw [getExclusiveMcastInfo_eq_slotOf,slotOf_eq_none_iff] at hi
    exact absurd hm (hi j hj)
  constructor
  · refine (exclusiveOk_fill_iff h.ok hT rfl rfl hi hs).trans (and_congr_left fun _ => ?_)
    have hone : (1#32).toNat = 1 := rfl
    dsimp only
    rw [hone,Nat.cast_one]
    by_cases hst : st = sok
    · rw [post_balance_self hst,hzero,zero_add]
      exact iff_of_true ⟨le_refl 1,rfl⟩ hst
    · rw [post_balance_failed hst,hzero]
      exact iff_of_false (fun hc => one_ne_zero hc.2) hst
  · refine idleZero_of_touches h.idle hT (fun hu => ?_) (.inl ⟨rfl,rfl⟩)
    rw [inUse_of_isFree hfree] at hu
    exact absurd hu Bool.false_ne_true

/-- From right books, an add is right exactly under its condition, and idle
balances stay zero. -/
theorem add_exact {vlanId : U16} {relFlow : Status × U32} {isInVlan : Bool} (h : BooksInv s) :
    (ExclusiveOk (step s (.add p a vlanId relFlow isInVlan x)) ∧
        EventOk s (.add p a vlanId relFlow isInVlan x) ↔
      KeepsExclusive s (.add p a vlanId relFlow isInVlan x)) ∧
    IdleZero (step s (.add p a vlanId relFlow isInVlan x)) := by
  dsimp only [step,EventOk,KeepsExclusive]
  rcases filterAddMacHandlerCb_cases s.obj p a vlanId relFlow isInVlan x with
    ⟨hno,hby⟩ | ⟨hreach,heff⟩
  · have hinv := h.bypassed (p := p) (d := 1) hby
    exact ⟨iff_of_true ⟨hinv.ok,refused_of_bypassed h.ok hby⟩ fun hr => absurd hr hno,hinv.idle⟩
  · rw [imp_iff_right hreach]
    revert heff
    generalize filterAddMacHandlerCb s.obj p a vlanId relFlow isInVlan x = r
    intro heff
    cases heff with
    | again i hi hp =>
      obtain ⟨hok,hidle⟩ := again_exact h hi hp
      refine ⟨?_,hidle⟩
      rw [hok,and_iff_left fun hc => absurd hc (not_claimedByOther_of_owner h.ok hi hp),hi]
      constructor
      · intro hmax
        refine ⟨fun j hj _ => ?_,fun hnone => absurd hnone (Option.some_ne_none i)⟩
        obtain rfl := Option.some.inj hj
        exact hmax
      · exact fun hG => hG.1 i rfl hp
    | other i st hi hp hst =>
      have hinv := h.bypassed (p := p) (d := 1) (bypasses_failed (a := a) (o := s.obj) hst)
      refine ⟨iff_of_true ⟨hinv.ok,fun _ => ⟨hst,rfl⟩⟩ ⟨fun j hj hown => ?_,fun hnone => ?_⟩,
        hinv.idle⟩
      · obtain rfl := Option.some.inj (hi.symm.trans hj)
        exact absurd hown hp
      · exact absurd (hi.symm.trans hnone) (Option.some_ne_none i)
    | refused st hi hfull hst =>
      have hinv := h.bypassed (p := p) (d := 1) (bypasses_failed (a := a) (o := s.obj) hst)
      refine ⟨iff_of_true ⟨hinv.ok,fun _ => ⟨hst,rfl⟩⟩ ⟨fun j hj => ?_,fun _ hlook hfree => ?_⟩,
        hinv.idle⟩
      · exact absurd (hj.symm.trans hi) (Option.some_ne_none j)
      · obtain ⟨j,hj⟩ := hfree
        exact absurd ((hfull hlook j).symm.trans hj) Bool.false_ne_true
    | claimed i st ale hi hlook hfree hst =>
      obtain ⟨hok,hidle⟩ := claimed_exact p st ale h hi hreach.notShared hfree
      refine ⟨?_,hidle⟩
      rw [hok,and_iff_left fun hc => absurd hc (not_claimedByOther_of_none hi),hst,hi]
      constructor
      · rintro ⟨⟨hadd,hpol⟩,hr⟩
        exact ⟨fun j hj => absurd hj.symm (Option.some_ne_none j),fun _ _ _ => ⟨hadd,hpol,hr⟩⟩
      · intro hG
        obtain ⟨hadd,hpol,hr⟩ := hG.2 rfl hlook ⟨i,hfree⟩
        exact ⟨⟨hadd,hpol⟩,hr⟩

/-- Any port can claim an address without an entry while one is free. -/
theorem claimable_of_free (hs : getSharedMcastInfo o a = none)
    (hi : getExclusiveMcastInfo o a = none) (hfree : (o.exclusiveMcast i).isFree = true) :
    Claimable o a := by
  intro q w hr
  have heff := filterAddMac_effect (p := q) (x := ⟨enotfound,sok,sok⟩) hr hs
  revert heff
  generalize filterAddMac o q a w ⟨enotfound,sok,sok⟩ = r
  intro heff
  cases heff with
  | again j hj => exact absurd (hj.symm.trans hi) (Option.some_ne_none j)
  | other j st hj => exact absurd (hj.symm.trans hi) (Option.some_ne_none j)
  | refused st _ hfull => exact absurd ((hfull rfl i).symm.trans hfree) Bool.false_ne_true
  | claimed j st ale _ _ _ hst => exact ⟨hst.mpr ⟨rfl,rfl⟩,j,update_self ..⟩

/-- A delete that leaves the exclusive table alone leaves no entry with
count zero. -/
theorem counted_of_bypassed (h : ExclusiveOk s) (hr : r.2.exclusiveMcast = s.obj.exclusiveMcast)
    (hu : inUse (s.obj.exclusiveMcast i) = true) : (r.2.exclusiveMcast i).refCnt ≠ 0#32 := by
  intro hz
  have hc := (h.counted i hu).1
  rw [hr] at hz
  rw [hz] at hc
  exact absurd hc (Nat.not_succ_le_zero 0)

/-- The owner gives one of several references back. -/
theorem one_booksInv (h : BooksInv s) (hi : getExclusiveMcastInfo s.obj a = some i)
    (hp : (s.obj.exclusiveMcast i).virtPort = p.val)
    (hmany : 1#32 < (s.obj.exclusiveMcast i).refCnt) :
    BooksInv (post s p a (-1) (sok,setExclusive s.obj i fun e => { e with
      refCnt := e.refCnt - 1#32 })) := by
  obtain ⟨hu,hk⟩ := owned_entry hi hp
  have hT := touches_post s p a (-1) i
    { s.obj.exclusiveMcast i with refCnt := (s.obj.exclusiveMcast i).refCnt - 1#32 }
    s.obj.ale s.obj.vepa sok
  have hc := h.ok.counted i hu
  rw [hk] at hc
  constructor
  · refine (exclusiveOk_rewrite_iff h.ok hT hk hu hu rfl).mpr ?_
    rw [post_balance_self rfl]
    exact counted_pred hc.2 hmany
  · exact idleZero_of_touches h.idle hT (fun _ => hk) (.inl ⟨hu,hk⟩)

/-- The owner gives the last reference back. -/
theorem last_booksInv {ale : MacAddr → Option U32} (h : BooksInv s)
    (hi : getExclusiveMcastInfo s.obj a = some i)
    (hp : (s.obj.exclusiveMcast i).virtPort = p.val)
    (hone : (s.obj.exclusiveMcast i).refCnt = 1#32) :
    BooksInv (post s p a (-1) (sok,{ s.obj with
      exclusiveMcast := update s.obj.exclusiveMcast i
        { s.obj.exclusiveMcast i with isFree := true, refCnt := 0#32 }
      ale := ale })) := by
  obtain ⟨hu,hk⟩ := owned_entry hi hp
  have hT := touches_post s p a (-1) i
    { s.obj.exclusiveMcast i with isFree := true, refCnt := 0#32 } ale s.obj.vepa sok
  have hfree : inUse { s.obj.exclusiveMcast i with isFree := true, refCnt := 0#32 } = false :=
    inUse_of_isFree rfl
  constructor
  · exact exclusiveOk_clear h.ok hu hfree (hk ▸ hT)
  · refine idleZero_of_touches h.idle hT (fun _ => hk) (.inr ?_)
    have hc := (h.ok.counted i hu).2
    have hcount : (1#32).toNat = 1 := rfl
    rw [hk,hone,hcount] at hc
    rw [post_balance_self rfl,← hc]
    rfl

/-- An address whose entry was freed can be claimed. -/
theorem last_claimable {ale : MacAddr → Option U32} (h : ExclusiveOk s)
    (hs : getSharedMcastInfo s.obj a = none)
    (hi : getExclusiveMcastInfo s.obj a = some i) :
    Claimable { s.obj with
      exclusiveMcast := update s.obj.exclusiveMcast i
        { s.obj.exclusiveMcast i with isFree := true, refCnt := 0#32 }
      ale := ale } a := by
  refine claimable_of_free (i := i) hs ?_ ?_
  · rw [getExclusiveMcastInfo_eq_slotOf,slotOf_eq_none_iff]
    intro j hj hm
    by_cases hji : j = i
    · subst hji
      dsimp only at hj
      rw [update_self,inUse_of_isFree rfl] at hj
      exact absurd hj Bool.false_ne_true
    · dsimp only at hj hm
      rw [update_of_ne hji] at hj hm
      exact hji (found_unique h hi hj hm)
  · dsimp only
    rw [update_self]

/-- From right books, a delete is right. -/
theorem del_exact (p : PortId) (a : MacAddr) (vlanId : U16) (isInVlan : Bool) (y : DelOutcomes)
    (h : BooksInv s) :
    BooksInv (step s (.del p a vlanId isInVlan y)) ∧ EventOk s (.del p a vlanId isInVlan y) := by
  dsimp only [step,EventOk]
  rcases filterDelMacHandlerCb_cases s.obj p a vlanId isInVlan y with hby | ⟨hs,heff⟩
  · exact ⟨h.bypassed hby,refused_of_bypassed h.ok hby,fun i hu _ hz =>
      absurd hz (counted_of_bypassed h.ok hby.table hu)⟩
  · revert heff
    generalize filterDelMacHandlerCb s.obj p a vlanId isInVlan y = r
    intro heff
    cases heff with
    | failed st hst =>
      exact ⟨h.bypassed (bypasses_failed hst),fun _ => ⟨hst,rfl⟩,fun i hu _ hz =>
        absurd hz (counted_of_bypassed (r := (st,s.obj)) h.ok rfl hu)⟩
    | idle i hi hz =>
      obtain ⟨hu,-⟩ := live_of_slotOf (getExclusiveMcastInfo_eq_slotOf (o := s.obj) ▸ hi)
      exact absurd hz (counted_of_bypassed (r := (sok,s.obj)) h.ok rfl hu)
    | one i hi hp hmany =>
      refine ⟨one_booksInv h hi hp hmany,fun hc =>
        absurd hc (not_claimedByOther_of_owner h.ok hi hp),fun j hj hm hz => ?_⟩
      obtain rfl := found_unique h.ok hi hj hm
      unfold setExclusive at hz
      dsimp only at hz
      rw [update_self] at hz
      have hne : (s.obj.exclusiveMcast j).refCnt - 1#32 ≠ 0#32 := by bv_omega
      exact absurd hz hne
    | last i ale hi hp hone =>
      refine ⟨last_booksInv h hi hp hone,fun hc =>
        absurd hc (not_claimedByOther_of_owner h.ok hi hp),fun j hj hm _ => ?_⟩
      obtain rfl := found_unique h.ok hi hj hm
      refine ⟨?_,last_claimable h.ok hs hi⟩
      dsimp only
      rw [update_self]

/-- From right books, an event is right exactly under its condition. -/
theorem step_exact (h : BooksInv s) (e : Event) :
    (ExclusiveOk (step s e) ∧ EventOk s e ↔ KeepsExclusive s e) ∧ IdleZero (step s e) := by
  cases e with
  | add p a vlanId relFlow isInVlan x => exact add_exact h
  | del p a vlanId isInVlan y =>
    obtain ⟨hinv,hok⟩ := del_exact p a vlanId isInVlan y h
    exact ⟨iff_of_true ⟨hinv.ok,hok⟩ trivial,hinv.idle⟩
  | vepaUse vepa =>
    have hinv : BooksInv (step s (.vepaUse vepa)) :=
      h.of_same rfl ⟨fun _ => rfl,fun _ => Iff.rfl⟩ fun _ _ _ => rfl
    exact ⟨iff_of_true ⟨hinv.ok,trivial⟩ trivial,hinv.idle⟩

end Books

/-- Every exclusive entry is free after initialisation. -/
theorem booksInv_startUp (ale : MacAddr → Option U32) (vepa : Option VepaTable.VepaObj)
    (shared : List McastCfg) (rsvd : List RsvdMcast) (m n : U32) :
    BooksInv (startUp ale vepa shared rsvd m n) := by
  have hfree : ∀ i, inUse ((startUp ale vepa shared rsvd m n).obj.exclusiveMcast i) ≠ true := by
    intro i hu
    rw [inUse_of_isFree rfl] at hu
    exact Bool.false_ne_true hu
  exact ⟨⟨fun i _ hi => absurd hi (hfree i),fun i hi => absurd hi (hfree i),
    fun i hi => absurd hi (hfree i),fun i hi => absurd hi (hfree i)⟩,fun _ _ _ _ => rfl⟩

/-- In every run of filter requests by any ports on any addresses, with any
outcome of the ioctls: the exclusive table agrees with the books in every
state and every request respects the owner, exactly when every event meets
its condition. -/
theorem exclusive_kept_iff (ale : MacAddr → Option U32) (vepa : Option VepaTable.VepaObj)
    (shared : List McastCfg) (rsvd : List RsvdMcast) (switchPortMask macOnlyPortMask : U32)
    (events : List Event) :
    Along step ExclusiveOk (startUp ale vepa shared rsvd switchPortMask macOnlyPortMask) events ∧
        Guarded step EventOk (startUp ale vepa shared rsvd switchPortMask macOnlyPortMask)
          events ↔
      Guarded step KeepsExclusive
        (startUp ale vepa shared rsvd switchPortMask macOnlyPortMask) events := by
  apply along_and_guarded_iff (I := BooksInv)
  · exact fun s h => h.ok
  · exact fun s e h hG => ⟨((step_exact h e).1.mpr hG).1,(step_exact h e).2⟩
  · exact fun s e h => (step_exact h e).1
  · exact booksInv_startUp ale vepa shared rsvd switchPortMask macOnlyPortMask

/-- A multicast address that is neither shared nor reserved. -/
def ownAddr : MacAddr := ⟨0x01#8,0#8,0x5E#8,0#8,0#8,0x02#8⟩

/-- A claim whose ALE entry cannot be added. -/
def failedClaim : List Event :=
  [.add switchPort ownAddr 0#16 (sok,0#32) false ⟨enotfound,efail,sok⟩]

/-- The claim fails, but the port owns the address afterwards. -/
theorem failed_claim_keeps_entry :
    ¬ (Along step ExclusiveOk (startUp (fun _ => none) none [] [] 0b1110#32 0b0001#32)
        failedClaim ∧
      Guarded step EventOk (startUp (fun _ => none) none [] [] 0b1110#32 0b0001#32)
        failedClaim) := by
  rintro ⟨halong,-⟩
  have hc := ((along_final halong).counted ⟨0,by decide⟩ (by decide)).2
  revert hc
  decide

end EthernetFirmware.McastExclusive
