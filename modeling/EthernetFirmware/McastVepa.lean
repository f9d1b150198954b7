import EthernetFirmware.McastExclusive
import EthernetFirmware.VepaMap

/-!
# Shared multicast addresses in builds with VEPA

A shared address is kept twice: the multicast filter counts its adds, and
the VEPA table has the set of its ports on each VLAN. Beside them the state
records every outstanding add with its VLAN and port. The two agree with
the record exactly while no port adds an address twice on a VLAN, the VEPA
table has room, deletes are of outstanding adds, and no ioctl fails after
one of the two was updated.
-/

namespace EthernetFirmware.McastVepa

open Function BitMasks SlotTables RemoteConfig McastFilter GuardedRuns VepaMap

/-- The filter with the record of outstanding adds. -/
structure Filter where
  /-- Tables and hardware. -/
  obj : McastObj
  /-- VLAN and port of every add of an address that is outstanding. -/
  adds : MacAddr → List (U16 × PortId)

/-- Requests to the filter. -/
inductive Event where
  /-- `EthFwMcast_filterAddMac`. -/
  | add (virtPort : PortId) (macAddr : MacAddr) (vlanId : U16) (x : AddOutcomes)
  /-- `EthFwMcast_filterDelMac`. -/
  | del (virtPort : PortId) (macAddr : MacAddr) (vlanId : U16) (y : DelOutcomes)

/-- The record after an add. -/
def recordAdd (s : Filter) (virtPort : PortId) (macAddr : MacAddr) (vlanId : U16)
    (r : Status × McastObj) : Filter where
  obj := r.2
  adds :=
    if r.1 = sok then update s.adds macAddr ((vlanId,virtPort) :: s.adds macAddr) else s.adds

/-- The record after a delete. -/
def recordDel (s : Filter) (virtPort : PortId) (macAddr : MacAddr) (vlanId : U16)
    (r : Status × McastObj) : Filter where
  obj := r.2
  adds :=
    if r.1 = sok then update s.adds macAddr ((s.adds macAddr).erase (vlanId,virtPort))
    else s.adds

/-- State after an event. -/
def step (s : Filter) : Event → Filter
  | .add virtPort macAddr vlanId x => recordAdd s virtPort macAddr vlanId
    (filterAddMac s.obj virtPort macAddr vlanId x)
  | .del virtPort macAddr vlanId y => recordDel s virtPort macAddr vlanId
    (filterDelMac s.obj virtPort macAddr vlanId y)

/-- An initialised filter with an empty record and this VEPA object. -/
def startUp (ale : MacAddr → Option U32) (vepa : VepaTable.VepaObj)
    (shared : List McastCfg) (rsvd : List RsvdMcast) (switchPortMask macOnlyPortMask : U32) :
    Filter where
  obj := (init (zeroed ale (some vepa)) shared rsvd switchPortMask macOnlyPortMask).2
  adds := fun _ => []

/-- The bit of a port is set in the VEPA entry of an address on a VLAN. -/
def PortSet (o : McastObj) (a : MacAddr) (v : U16) (p : PortId) : Prop :=
  ∃ vepa mask, o.vepa = some vepa ∧
    VepaTable.getVirtPortMask vepa.remoteCoreVepaTable a v = some mask ∧
    isSet mask p.val.toNat = true

/-- Count, VEPA table and ALE agree with the record of a shared address. -/
structure Agrees (s : Filter) (a : MacAddr) (i : Fin sharedMcastListLen) : Prop where
  /-- The bits set are the ports with an outstanding add. -/
  ports : ∀ v p, PortSet s.obj a v p ↔ (v,p) ∈ s.adds a
  /-- Every outstanding add is counted. -/
  refs : (s.obj.sharedMcast i).refCnt.toNat = (s.adds a).length
  /-- Without outstanding adds there is no VEPA entry. -/
  noEntry : s.adds a = [] → ∀ v, ¬ VepaKnown s.obj a v
  /-- And no ALE entry. -/
  removed : s.adds a = [] → s.obj.ale a = none

/-- All shared addresses agree with the record. -/
def Agreement (s : Filter) : Prop :=
  ∀ a i, getSharedMcastInfo s.obj a = some i → Agrees s a i

/-- A delete of an outstanding add of a shared address succeeds. -/
def DeletesSucceed (s : Filter) : Event → Prop
  | .add _ _ _ _ => True
  | .del p a v y => ∀ i, getSharedMcastInfo s.obj a = some i → (v,p) ∈ s.adds a →
    (filterDelMac s.obj p a v y).1 = sok

/-- The VEPA table has a free entry. -/
def VepaRoom (o : McastObj) : Prop :=
  ∀ vepa, o.vepa = some vepa → VepaTable.HasRoom vepa.remoteCoreVepaTable

/-- When an event keeps the agreement. -/
def KeepsAgreement (s : Filter) : Event → Prop
  | .add _ a v x => ∀ i, getSharedMcastInfo s.obj a = some i → isRsvdMcast s.obj a v = false →
    (AddGoes s.obj i x → (s.obj.sharedMcast i).refCnt ≠ 0xFFFFFFFF#32 ∧
      (VepaKnown s.obj a v ∨ VepaRoom s.obj)) ∧
    ((s.obj.sharedMcast i).refCnt = 0#32 → x.addMcast = sok →
      ∀ vepa, s.obj.vepa = some vepa → VepaTable.addMcastPolicer vepa x.setPolicer = sok)
  | .del p a v y => ∀ i, getSharedMcastInfo s.obj a = some i → isRsvdMcast s.obj a v = false →
    ((v,p) ∈ s.adds a → (s.adds a).count (v,p) = 1 ∧ DelGoes s.obj i y) ∧
    ((v,p) ∉ s.adds a → VepaKnown s.obj a v → ¬ DelGoes s.obj i y)

section Requests

variable {o : McastObj} {i : Fin sharedMcastListLen} {p : PortId} {a : MacAddr} {v : U16}
  {x : AddOutcomes} {y : DelOutcomes} {w : VepaTable.VepaObj}

/-- The VEPA object with another table. -/
def withTable (w : VepaTable.VepaObj) (t : VepaTable.Table) : VepaTable.VepaObj :=
  { w with remoteCoreVepaTable := t }

/-- An add of a shared address that goes through also adds the port to the
VEPA table. -/
theorem filterAddMac_goes_vepa (hw : o.vepa = some w) (hr : isRsvdMcast o a v = false)
    (hi : getSharedMcastInfo o a = some i) (h : AddGoes o i x) : filterAddMac o p a v x =
      (sok,{ setRefCnt o i ((o.sharedMcast i).refCnt + 1#32) with
        ale := if (o.sharedMcast i).refCnt = 0#32 then
            update o.ale a (some (o.sharedMcast i).portMask)
          else o.ale
        vepa := some (withTable w (VepaTable.addAddr w.remoteCoreVepaTable a v p).2) }) := by
  unfold filterAddMac
  rw [hr,hi]
  dsimp only
  rw [filterAddMacShared_goes h,if_neg Bool.false_ne_true,if_pos rfl]
  unfold vepaAdd setRefCnt
  dsimp only
  rw [hw]
  exact Prod.ext VepaTable.addAddr_status rfl

/-- What a delete of a shared address does in a build with VEPA. -/
theorem filterDelMac_vepa (hw : o.vepa = some w) (hr : isRsvdMcast o a v = false)
    (hi : getSharedMcastInfo o a = some i) :
    (¬ VepaKnown o a v ∧ filterDelMac o p a v y = (efail,o)) ∨
    (VepaKnown o a v ∧ ¬ DelGoes o i y ∧ (filterDelMac o p a v y).1 ≠ sok ∧
      (filterDelMac o p a v y).2 = { o with
        vepa := some (withTable w (VepaTable.delAddr w.remoteCoreVepaTable a v p).2) }) ∨
    (VepaKnown o a v ∧ DelGoes o i y ∧ filterDelMac o p a v y =
      (sok,{ setRefCnt o i ((o.sharedMcast i).refCnt - 1#32) with
        ale := if (o.sharedMcast i).refCnt = 1#32 then update o.ale a none else o.ale
        vepa := some (withTable w (VepaTable.delAddr w.remoteCoreVepaTable a v p).2) })) := by
  have hmac := (getSharedMcastInfo_eq_some_iff.mp hi).1.2
  have hdel : vepaDel o a v p =
      ((VepaTable.delAddr w.remoteCoreVepaTable a v p).1,{ o with
        vepa := some (withTable w (VepaTable.delAddr w.remoteCoreVepaTable a v p).2) }) := by
    unfold vepaDel
    rw [hw]
    rfl
  have hgoes : DelGoes { o with
      vepa := some (withTable w (VepaTable.delAddr w.remoteCoreVepaTable a v p).2) } i y ↔
      DelGoes o i y := by
    unfold DelGoes
    rw [hw]
    rfl
  unfold filterDelMac
  rw [hr,hi]
  dsimp only
  rw [hmac,if_neg Bool.false_ne_true]
  by_cases hk : VepaKnown o a v
  · rw [if_pos (vepaDel_ok_iff.mpr hk),hdel]
    dsimp only
    by_cases hg : DelGoes o i y
    · rw [filterDelMacShared_goes (hgoes.mpr hg)]
      exact .inr (.inr ⟨hk,hg,rfl⟩)
    · obtain ⟨hst,hobj⟩ := filterDelMacShared_fails (a := a) (fun h => hg (hgoes.mp h))
      exact .inr (.inl ⟨hk,hg,hst,hobj⟩)
  · have hno : ¬ VepaTable.Known w.remoteCoreVepaTable a v := by
      intro hw'
      exact hk fun vepa hv => by rwa [← Option.some.inj (hw.symm.trans hv)]
    rw [if_neg (fun hok => hk (vepaDel_ok_iff.mp hok)),hdel,delAddr_unknown hno]
    refine .inl ⟨hk,Prod.ext rfl ?_⟩
    change { o with vepa := some w } = o
    rw [← hw]

/-- Requests for an address that is not shared leave the VEPA object and the
reserved addresses alone. -/
theorem filterAddMac_unshared (hs : getSharedMcastInfo o a = none) :
    (filterAddMac o p a v x).2.vepa = o.vepa ∧
      ∀ b u, isRsvdMcast (filterAddMac o p a v x).2 b u = isRsvdMcast o b u := by
  cases hr : isRsvdMcast o a v with
  | true =>
    rw [filterAddMac_reserved hr]
    exact ⟨rfl,fun _ _ => rfl⟩
  | false =>
    have heff := McastExclusive.filterAddMac_effect (p := p) (x := x) hr hs
    revert heff
    generalize filterAddMac o p a v x = r
    intro heff
    cases heff <;> exact ⟨rfl,fun _ _ => rfl⟩

theorem filterDelMac_unshared (hs : getSharedMcastInfo o a = none) :
    (filterDelMac o p a v y).2.vepa = o.vepa ∧
      ∀ b u, isRsvdMcast (filterDelMac o p a v y).2 b u = isRsvdMcast o b u := by
  cases hr : isRsvdMcast o a v with
  | true =>
    rw [filterDelMac_reserved hr]
    exact ⟨rfl,fun _ _ => rfl⟩
  | false =>
    have heff := McastExclusive.filterDelMac_effect (p := p) (y := y) hr hs
    revert heff
    generalize filterDelMac o p a v y = r
    intro heff
    cases heff <;> exact ⟨rfl,fun _ _ => rfl⟩

end Requests

section Invariant

variable {s s' : Filter} {o : McastObj} {m m' : PortMap} {i : Fin sharedMcastListLen}
  {a b : MacAddr} {v : U16} {p : PortId}

/-- The VEPA object holds a map. -/
def Content (o : McastObj) (m : PortMap) : Prop :=
  ∃ vepa, o.vepa = some vepa ∧ Represents vepa.remoteCoreVepaTable m

theorem Content.portSet_iff (h : Content o m) :
    PortSet o a v p ↔ p.val.toNat ∈ portsAt m (a,v) := by
  obtain ⟨vepa,hv,hrep⟩ := h
  rw [hrep.port_iff]
  constructor
  · rintro ⟨vepa',mask,hv',hmask⟩
    obtain rfl := Option.some.inj (hv.symm.trans hv')
    exact ⟨mask,hmask⟩
  · rintro ⟨mask,hmask⟩
    exact ⟨vepa,mask,hv,hmask⟩

theorem Content.known_iff (h : Content o m) : VepaKnown o a v ↔ (a,v) ∈ m := by
  obtain ⟨vepa,hv,hrep⟩ := h
  rw [← hrep.known_iff]
  exact ⟨fun hk => hk vepa hv,fun hk vepa' hv' => by rwa [← Option.some.inj (hv.symm.trans hv')]⟩

theorem Content.room_iff (h : Content o m) :
    VepaRoom o ↔ m.keys.card < VepaTable.tableSize := by
  obtain ⟨vepa,hv,hrep⟩ := h
  rw [← hrep.room_iff]
  exact ⟨fun hk => hk vepa hv,fun hk vepa' hv' => by rwa [← Option.some.inj (hv.symm.trans hv')]⟩

/-- A key of the map has a port. -/
theorem Content.port_of_mem (h : Content o m) {k : Key} (hk : k ∈ m) : ∃ n, n ∈ portsAt m k := by
  obtain ⟨vepa,-,hrep⟩ := h
  obtain ⟨ps,hps⟩ := Finmap.mem_iff.mp hk
  obtain ⟨n,hn⟩ := hrep.nonempty k ps hps
  refine ⟨n,?_⟩
  unfold portsAt
  rw [hps]
  exact hn

/-- What the tables keep of a shared address. -/
structure LocalInv (s : Filter) (m : PortMap) (a : MacAddr) (i : Fin sharedMcastListLen) :
    Prop where
  /-- The ports of the map are those of the record. -/
  ports : ∀ v n, n ∈ portsAt m (a,v) ↔ ∃ p, (v,p) ∈ s.adds a ∧ p.val.toNat = n
  /-- Every outstanding add is counted. -/
  refs : (s.obj.sharedMcast i).refCnt.toNat = (s.adds a).length
  /-- Without outstanding adds there is no ALE entry. -/
  removed : s.adds a = [] → s.obj.ale a = none
  /-- No outstanding add is on a VLAN the address is reserved on. -/
  notRsvd : ∀ v p, (v,p) ∈ s.adds a → isRsvdMcast s.obj a v = false

/-- What events that keep the agreement keep. -/
structure AgreeInv (s : Filter) (m : PortMap) : Prop where
  /-- The VEPA object holds the map. -/
  content : Content s.obj m
  /-- Every shared address agrees. -/
  locals : ∀ a i, getSharedMcastInfo s.obj a = some i → LocalInv s m a i

/-- A port is its number. -/
theorem port_eq_of_toNat {p q : PortId} (h : q.val.toNat = p.val.toNat) : q = p :=
  Subtype.ext (BitVec.eq_of_toNat_eq h)

theorem LocalInv.port_iff (h : LocalInv s m a i) :
    p.val.toNat ∈ portsAt m (a,v) ↔ (v,p) ∈ s.adds a := by
  rw [h.ports]
  constructor
  · rintro ⟨q,hq,hqp⟩
    rwa [port_eq_of_toNat hqp] at hq
  · exact fun hp => ⟨p,hp,rfl⟩

theorem LocalInv.known_of_mem (h : LocalInv s m a i) (hp : (v,p) ∈ s.adds a) : (a,v) ∈ m :=
  mem_of_portsAt (h.port_iff.mpr hp)

theorem LocalInv.agrees (hc : Content s.obj m) (h : LocalInv s m a i) : Agrees s a i := by
  refine ⟨fun v p => hc.portSet_iff.trans h.port_iff,h.refs,fun hnil v hk => ?_,h.removed⟩
  obtain ⟨n,hn⟩ := hc.port_of_mem (hc.known_iff.mp hk)
  obtain ⟨p,hp,-⟩ := (h.ports v n).mp hn
  rw [hnil] at hp
  exact absurd hp List.not_mem_nil

theorem AgreeInv.agreement (h : AgreeInv s m) : Agreement s :=
  fun a i hi => (h.locals a i hi).agrees h.content

/-- An event concerns one address. -/
structure Touches (s s' : Filter) (a : MacAddr) (m m' : PortMap) : Prop where
  /-- The VEPA object holds the new map. -/
  content : Content s'.obj m'
  /-- The look-ups are the same. -/
  lookup : ∀ b, getSharedMcastInfo s'.obj b = getSharedMcastInfo s.obj b
  /-- So are the entries of the other addresses. -/
  entries : ∀ b j, b ≠ a → getSharedMcastInfo s.obj b = some j →
    s'.obj.sharedMcast j = s.obj.sharedMcast j
  /-- And the ALE. -/
  ale : ∀ b, b ≠ a → s'.obj.ale b = s.obj.ale b
  /-- And the record. -/
  adds : ∀ b, b ≠ a → s'.adds b = s.adds b
  /-- And their ports. -/
  ports : ∀ b u, b ≠ a → portsAt m' (b,u) = portsAt m (b,u)
  /-- The same addresses are reserved. -/
  rsvd : ∀ b u, isRsvdMcast s'.obj b u = isRsvdMcast s.obj b u

/-- Only the address an event concerns needs a look. -/
theorem AgreeInv.touched (h : AgreeInv s m) (hT : Touches s s' a m m')
    (hlocal : ∀ i, getSharedMcastInfo s.obj a = some i → LocalInv s' m' a i) :
    AgreeInv s' m' := by
  refine ⟨hT.content,fun b j hj => ?_⟩
  rw [hT.lookup] at hj
  by_cases hb : b = a
  · subst hb
    exact hlocal j hj
  · have hl := h.locals b j hj
    refine ⟨fun u n => ?_,?_,fun hnil => ?_,fun u q hq => ?_⟩
    · rw [hT.ports b u hb,hT.adds b hb]
      exact hl.ports u n
    · rw [hT.entries b j hb hj,hT.adds b hb]
      exact hl.refs
    · rw [hT.adds b hb] at hnil
      rw [hT.ale b hb]
      exact hl.removed hnil
    · rw [hT.adds b hb] at hq
      rw [hT.rsvd]
      exact hl.notRsvd u q hq

/-- A request for an address that is not shared concerns no shared one. -/
theorem touches_unshared {adds : MacAddr → List (U16 × PortId)} {o : McastObj}
    (hc : Content s.obj m) (hf : SharedFrame s.obj o a) (hv : o.vepa = s.obj.vepa)
    (hr : ∀ b u, isRsvdMcast o b u = isRsvdMcast s.obj b u)
    (hadds : ∀ b, b ≠ a → adds b = s.adds b) : Touches s ⟨o,adds⟩ a m m := by
  refine ⟨?_,fun b => ?_,fun b j _ _ => ?_,hf.ale,hadds,fun _ _ _ => rfl,hr⟩
  · unfold Content at hc ⊢
    rw [hv]
    exact hc
  · exact getSharedMcastInfo_congr hf.len fun j => by rw [hf.table]
  · exact congrFun hf.table j

/-- A request for a shared address that changes its count concerns no other
address. -/
theorem touches_shared {n : U32} {ale : MacAddr → Option U32} {w : VepaTable.VepaObj}
    {l : List (U16 × PortId)} (hi : getSharedMcastInfo s.obj a = some i)
    (hrep : Represents w.remoteCoreVepaTable m') (hale : ∀ b, b ≠ a → ale b = s.obj.ale b)
    (hports : ∀ b u, b ≠ a → portsAt m' (b,u) = portsAt m (b,u)) :
    Touches s ⟨{ setRefCnt s.obj i n with ale := ale, vepa := some w },update s.adds a l⟩ a
      m m' := by
  refine ⟨⟨w,rfl,hrep⟩,(McastExclusive.sameLists_setRefCnt i n ale (some w)).shared,
    fun b j hb hj => ?_,hale,fun b hb => update_of_ne hb ..,hports,fun _ _ => rfl⟩
  exact update_of_ne (ne_of_getSharedMcastInfo hi hj hb) ..

variable {x : AddOutcomes} {y : DelOutcomes}

/-- The record after a request that succeeded. -/
theorem recordAdd_ok {r : Status × McastObj} (h : r.1 = sok) :
    recordAdd s p a v r = ⟨r.2,update s.adds a ((v,p) :: s.adds a)⟩ := by
  unfold recordAdd
  rw [if_pos h]

theorem recordAdd_failed {r : Status × McastObj} (h : r.1 ≠ sok) :
    recordAdd s p a v r = ⟨r.2,s.adds⟩ := by
  unfold recordAdd
  rw [if_neg h]

theorem recordDel_ok {r : Status × McastObj} (h : r.1 = sok) :
    recordDel s p a v r = ⟨r.2,update s.adds a ((s.adds a).erase (v,p))⟩ := by
  unfold recordDel
  rw [if_pos h]

theorem recordDel_failed {r : Status × McastObj} (h : r.1 ≠ sok) :
    recordDel s p a v r = ⟨r.2,s.adds⟩ := by
  unfold recordDel
  rw [if_neg h]

/-- The state after an add of a shared address that goes through. -/
def afterAdd (s : Filter) (w : VepaTable.VepaObj) (i : Fin sharedMcastListLen) (p : PortId)
    (a : MacAddr) (v : U16) : Filter where
  obj := { setRefCnt s.obj i ((s.obj.sharedMcast i).refCnt + 1#32) with
    ale := if (s.obj.sharedMcast i).refCnt = 0#32 then
        update s.obj.ale a (some (s.obj.sharedMcast i).portMask)
      else s.obj.ale
    vepa := some (withTable w (VepaTable.addAddr w.remoteCoreVepaTable a v p).2) }
  adds := update s.adds a ((v,p) :: s.adds a)

/-- One outstanding add more is counted and its port is in the map. -/
theorem LocalInv.afterAdd {w : VepaTable.VepaObj} (h : LocalInv s m a i)
    (hr : isRsvdMcast s.obj a v = false)
    (hmax : (s.obj.sharedMcast i).refCnt ≠ 0xFFFFFFFF#32) :
    LocalInv (afterAdd s w i p a v)
      (m.insert (a,v) (insert p.val.toNat (portsAt m (a,v)))) a i := by
  have hadds : (McastVepa.afterAdd s w i p a v).adds a = (v,p) :: s.adds a := update_self ..
  refine ⟨fun u n => ?_,?_,fun hnil => ?_,fun u q hq => ?_⟩
  · rw [hadds]
    by_cases hu : u = v
    · subst hu
      rw [portsAt_insert,Finset.mem_insert,h.ports]
      constructor
      · rintro (rfl | ⟨q,hq,hqn⟩)
        · exact ⟨p,List.mem_cons_self,rfl⟩
        · exact ⟨q,List.mem_cons_of_mem _ hq,hqn⟩
      · rintro ⟨q,hq,hqn⟩
        rcases List.mem_cons.mp hq with heq | hq
        · obtain ⟨-,rfl⟩ := Prod.mk.inj heq
          exact .inl hqn.symm
        · exact .inr ⟨q,hq,hqn⟩
    · rw [portsAt_insert_of_ne (fun h => hu (Prod.ext_iff.mp h).2),h.ports]
      refine exists_congr fun q => and_congr_left fun _ => ?_
      rw [List.mem_cons]
      exact (or_iff_right fun h => hu (Prod.ext_iff.mp h).1).symm
  · rw [hadds,List.length_cons,← h.refs]
    change ((setRefCnt s.obj i _).sharedMcast i).refCnt.toNat = _
    rw [setRefCnt_self]
    exact toNat_succ_iff.mpr hmax
  · rw [hadds] at hnil
    exact absurd hnil (List.cons_ne_nil _ _)
  · rw [hadds] at hq
    rcases List.mem_cons.mp hq with heq | hq
    · obtain ⟨rfl,-⟩ := Prod.mk.inj heq
      exact hr
    · exact h.notRsvd u q hq

theorem recordAdd_eq_afterAdd {w : VepaTable.VepaObj} (hw : s.obj.vepa = some w)
    (hr : isRsvdMcast s.obj a v = false) (hi : getSharedMcastInfo s.obj a = some i)
    (hg : AddGoes s.obj i x) :
    recordAdd s p a v (filterAddMac s.obj p a v x) = afterAdd s w i p a v := by
  rw [filterAddMac_goes_vepa hw hr hi hg,recordAdd_ok rfl]
  rfl

/-- An add of a shared address that goes through keeps the agreement when
the table has room and the count does not wrap around. -/
theorem AgreeInv.add_goes (h : AgreeInv s m) (hr : isRsvdMcast s.obj a v = false)
    (hi : getSharedMcastInfo s.obj a = some i) (hg : AddGoes s.obj i x)
    (hmax : (s.obj.sharedMcast i).refCnt ≠ 0xFFFFFFFF#32)
    (hroom : VepaKnown s.obj a v ∨ VepaRoom s.obj) :
    ∃ m', AgreeInv (recordAdd s p a v (filterAddMac s.obj p a v x)) m' := by
  rw [h.content.known_iff,h.content.room_iff] at hroom
  obtain ⟨w,hw,hrep⟩ := h.content
  refine ⟨m.insert (a,v) (insert p.val.toNat (portsAt m (a,v))),?_⟩
  rw [recordAdd_eq_afterAdd hw hr hi hg]
  refine h.touched (touches_shared hi (hrep.addAddr hroom) ?_ ?_) fun j hj => ?_
  · exact fun b hb => McastOwnership.ite_update_of_ne hb
  · exact fun b u hb => portsAt_insert_of_ne fun heq => hb (Prod.mk.inj heq).1
  · obtain rfl := Option.some.inj (hi.symm.trans hj)
    exact (h.locals a i hi).afterAdd hr hmax

/-- An add under its condition keeps the agreement. -/
theorem AgreeInv.add (h : AgreeInv s m) (hG : KeepsAgreement s (.add p a v x)) :
    ∃ m', AgreeInv (step s (.add p a v x)) m' := by
  dsimp only [step]
  cases hr : isRsvdMcast s.obj a v with
  | true =>
    rw [filterAddMac_reserved hr,recordAdd_failed ebadArgs_ne_sok]
    exact ⟨m,h⟩
  | false =>
    cases hi : getSharedMcastInfo s.obj a with
    | none =>
      obtain ⟨hv,hrsvd⟩ := filterAddMac_unshared (p := p) (v := v) (x := x) hi
      refine ⟨m,h.touched (touches_unshared h.content (filterAddMac_frame hi) hv hrsvd
        fun b hb => McastOwnership.ite_update_of_ne hb) fun j hj => ?_⟩
      exact absurd (hi.symm.trans hj).symm (Option.some_ne_none j)
    | some i =>
      obtain ⟨hgoes,hpol⟩ := hG i hi hr
      by_cases hg : AddGoes s.obj i x
      · exact h.add_goes hr hi hg (hgoes hg).1 (hgoes hg).2
      · obtain ⟨hz,hfail⟩ := Classical.not_imp.mp hg
        obtain ⟨hst,hobj⟩ := filterAddMac_fails (p := p) hr hi hg
        have hadd : x.addMcast ≠ sok := fun hadd => hfail ⟨hadd,hpol hz hadd⟩
        rw [if_neg hadd] at hobj
        rw [recordAdd_failed hst,hobj]
        exact ⟨m,h⟩

/-- An add after which the shared addresses agree met its condition. -/
theorem AgreeInv.add_needs (h : AgreeInv s m) (hP : Agreement (step s (.add p a v x))) :
    KeepsAgreement s (.add p a v x) := by
  intro i hi hr
  have hlocal := h.locals a i hi
  constructor
  · intro hg
    obtain ⟨w,hw,-⟩ := h.content
    have heq := recordAdd_eq_afterAdd (p := p) hw hr hi hg
    dsimp only [step] at hP
    rw [heq] at hP
    have hfound : getSharedMcastInfo (afterAdd s w i p a v).obj a = some i :=
      ((McastExclusive.sameLists_setRefCnt i _ _ _).shared a).trans hi
    have hadds : (afterAdd s w i p a v).adds a = (v,p) :: s.adds a := update_self ..
    have hok := hP a i hfound
    constructor
    · have hrefs := hok.refs
      rw [hadds,List.length_cons,← hlocal.refs] at hrefs
      change ((setRefCnt s.obj i _).sharedMcast i).refCnt.toNat = _ at hrefs
      rw [setRefCnt_self] at hrefs
      exact toNat_succ_iff.mp hrefs
    · have hset := (hok.ports v p).mpr (by rw [hadds]; exact List.mem_cons_self)
      obtain ⟨w',mask,hw',hmask,-⟩ := hset
      obtain rfl := Option.some.inj hw'
      have hknown : VepaTable.Known (VepaTable.addAddr w.remoteCoreVepaTable a v p).2 a v := by
        unfold VepaTable.Known
        unfold VepaTable.getVirtPortMask at hmask
        obtain ⟨j,hj,-⟩ := Option.map_eq_some_iff.mp hmask
        exact Option.isSome_iff_exists.mpr ⟨j,hj⟩
      refine (VepaTable.known_addAddr_iff.mp hknown).imp ?_ ?_
      · exact fun hk w' hw' => by rwa [← Option.some.inj (hw.symm.trans hw')]
      · exact fun hk w' hw' => by rwa [← Option.some.inj (hw.symm.trans hw')]
  · intro hz hadd
    by_contra hpol
    have hg : ¬ AddGoes s.obj i x := fun hg => hpol (hg hz).2
    obtain ⟨hst,hobj⟩ := filterAddMac_fails (p := p) hr hi hg
    rw [if_pos hadd] at hobj
    dsimp only [step] at hP
    rw [recordAdd_failed hst,hobj] at hP
    have hnil : s.adds a = [] := by
      have hrefs := hlocal.refs
      rw [hz] at hrefs
      exact List.length_eq_zero_iff.mp hrefs.symm
    have hnone := (hP a i hi).removed hnil
    dsimp only at hnone
    rw [update_self] at hnone
    exact absurd hnone (Option.some_ne_none _)

/-- The state after a delete of a shared address that goes through. -/
def afterDel (s : Filter) (w : VepaTable.VepaObj) (i : Fin sharedMcastListLen) (p : PortId)
    (a : MacAddr) (v : U16) : Filter where
  obj := { setRefCnt s.obj i ((s.obj.sharedMcast i).refCnt - 1#32) with
    ale := if (s.obj.sharedMcast i).refCnt = 1#32 then update s.obj.ale a none else s.obj.ale
    vepa := some (withTable w (VepaTable.delAddr w.remoteCoreVepaTable a v p).2) }
  adds := update s.adds a ((s.adds a).erase (v,p))

/-- Erasing the only occurrence of a value leaves the others. -/
theorem mem_erase_iff_of_count {α : Type*} [BEq α] [LawfulBEq α] {l : List α} {x y : α}
    (h : l.count x = 1) : y ∈ l.erase x ↔ y ≠ x ∧ y ∈ l := by
  by_cases hy : y = x
  · subst hy
    refine iff_of_false (fun hm => ?_) fun hm => hm.1 rfl
    have hzero : (l.erase y).count y = 0 := by rw [List.count_erase_self,h]
    exact List.count_eq_zero.mp hzero hm
  · rw [List.mem_erase_of_ne hy]
    exact (and_iff_right hy).symm

/-- One outstanding add less is counted and its port is gone from the map. -/
theorem LocalInv.afterDel {w : VepaTable.VepaObj} (h : LocalInv s m a i)
    (hcount : (s.adds a).count (v,p) = 1) (hpos : (s.obj.sharedMcast i).refCnt ≠ 0#32) :
    LocalInv (afterDel s w i p a v) (dropPort m (a,v) p.val.toNat) a i := by
  have hmem : (v,p) ∈ s.adds a := List.count_pos_iff.mp (by rw [hcount]; exact Nat.one_pos)
  have hadds : (McastVepa.afterDel s w i p a v).adds a = (s.adds a).erase (v,p) :=
    update_self ..
  have hlen := List.length_erase_of_mem hmem
  refine ⟨fun u n => ?_,?_,fun hnil => ?_,fun u q hq => ?_⟩
  · rw [hadds]
    by_cases hu : u = v
    · subst hu
      rw [portsAt_dropPort,Finset.mem_erase,h.ports]
      constructor
      · rintro ⟨hn,q,hq,rfl⟩
        refine ⟨q,(mem_erase_iff_of_count hcount).mpr ⟨fun heq => hn ?_,hq⟩,rfl⟩
        rw [(Prod.mk.inj heq).2]
      · rintro ⟨q,hq,rfl⟩
        obtain ⟨hne,hq⟩ := (mem_erase_iff_of_count hcount).mp hq
        refine ⟨fun heq => hne ?_,q,hq,rfl⟩
        rw [port_eq_of_toNat heq]
    · rw [portsAt_dropPort_of_ne (fun h => hu (Prod.mk.inj h).2),h.ports]
      refine exists_congr fun q => and_congr_left fun _ => ?_
      rw [mem_erase_iff_of_count hcount]
      exact (and_iff_right fun heq => hu (Prod.mk.inj heq).1).symm
  · rw [hadds,hlen,← h.refs]
    change ((setRefCnt s.obj i _).sharedMcast i).refCnt.toNat = _
    rw [setRefCnt_self]
    exact toNat_pred hpos
  · rw [hadds] at hnil
    have hone : (s.obj.sharedMcast i).refCnt.toNat = 1 := by
      have hzero := congrArg List.length hnil
      have hlt := List.length_pos_of_mem hmem
      rw [hlen,List.length_nil] at hzero
      rw [h.refs]
      omega
    have hrc : (s.obj.sharedMcast i).refCnt = 1#32 := BitVec.eq_of_toNat_eq hone
    change (if (s.obj.sharedMcast i).refCnt = 1#32 then update s.obj.ale a none
      else s.obj.ale) a = none
    rw [if_pos hrc,update_self]
  · rw [hadds] at hq
    exact h.notRsvd u q (List.mem_of_mem_erase hq)

/-- Deleting a port that is not in the table changes nothing. -/
theorem delAddr_absent {t : VepaTable.Table} (h : Represents t m)
    (hp : p.val.toNat ∉ portsAt m (a,v)) : (VepaTable.delAddr t a v p).2 = t := by
  by_cases hk : (a,v) ∈ m
  · obtain ⟨j,hj,-,hps⟩ := h.slot hk
    rw [hps] at hp
    have hclear : clearBit (t j).virtPortMask p.val.toNat = (t j).virtPortMask :=
      clearBit_of_not (by rwa [mem_members,Bool.not_eq_true] at hp)
    have hne : (t j).virtPortMask ≠ 0#32 := by
      obtain ⟨ps,hlook⟩ := Finmap.mem_iff.mp hk
      have hnonempty := h.nonempty _ _ hlook
      unfold portsAt at hps
      rw [hlook] at hps
      change ps = _ at hps
      rw [hps] at hnonempty
      exact members_nonempty_iff.mp hnonempty
    unfold VepaTable.delAddr
    simp only [hj]
    rw [hclear,if_neg hne]
    exact update_eq_self j t
  · rw [delAddr_unknown fun hk' => hk (h.known_iff.mp hk')]

theorem recordDel_eq_afterDel {w : VepaTable.VepaObj} {r : Status × McastObj}
    (h : r = (sok,{ setRefCnt s.obj i ((s.obj.sharedMcast i).refCnt - 1#32) with
      ale := if (s.obj.sharedMcast i).refCnt = 1#32 then update s.obj.ale a none else s.obj.ale
      vepa := some (withTable w (VepaTable.delAddr w.remoteCoreVepaTable a v p).2) })) :
    recordDel s p a v r = afterDel s w i p a v := by
  rw [h,recordDel_ok rfl]
  rfl

/-- A delete of the only outstanding add of its port keeps the agreement. -/
theorem AgreeInv.afterDel {w : VepaTable.VepaObj} (h : AgreeInv s m)
    (hrep : Represents w.remoteCoreVepaTable m) (hi : getSharedMcastInfo s.obj a = some i)
    (hcount : (s.adds a).count (v,p) = 1) (hpos : (s.obj.sharedMcast i).refCnt ≠ 0#32) :
    AgreeInv (afterDel s w i p a v) (dropPort m (a,v) p.val.toNat) := by
  have hmem : (v,p) ∈ s.adds a := List.count_pos_iff.mp (by rw [hcount]; exact Nat.one_pos)
  have hset := (h.locals a i hi).port_iff.mpr hmem
  refine h.touched (touches_shared hi (hrep.delAddr hset).2 ?_ ?_) fun j hj => ?_
  · exact fun b hb => McastOwnership.ite_update_of_ne hb
  · exact fun b u hb => portsAt_dropPort_of_ne fun heq => hb (Prod.mk.inj heq).1
  · obtain rfl := Option.some.inj (hi.symm.trans hj)
    exact (h.locals a i hi).afterDel hcount hpos

/-- A delete under its condition keeps the agreement, and succeeds when its
add is outstanding. -/
theorem AgreeInv.del (h : AgreeInv s m) (hG : KeepsAgreement s (.del p a v y)) :
    (∃ m', AgreeInv (step s (.del p a v y)) m') ∧ DeletesSucceed s (.del p a v y) := by
  dsimp only [step,DeletesSucceed]
  cases hr : isRsvdMcast s.obj a v with
  | true =>
    rw [filterDelMac_reserved hr,recordDel_failed ebadArgs_ne_sok]
    refine ⟨⟨m,h⟩,fun i hi hmem => ?_⟩
    have hfalse := (h.locals a i hi).notRsvd v p hmem
    exact absurd (hfalse.symm.trans hr) Bool.false_ne_true
  | false =>
    cases hi : getSharedMcastInfo s.obj a with
    | none =>
      obtain ⟨hv,hrsvd⟩ := filterDelMac_unshared (p := p) (v := v) (y := y) hi
      refine ⟨⟨m,h.touched (touches_unshared h.content (filterDelMac_frame hi) hv hrsvd
        fun b hb => McastOwnership.ite_update_of_ne hb) fun j hj => ?_⟩,fun j hj => ?_⟩
      · exact absurd (hi.symm.trans hj).symm (Option.some_ne_none j)
      · exact absurd hj.symm (Option.some_ne_none j)
    | some i =>
      obtain ⟨hown,hother⟩ := hG i hi hr
      obtain ⟨w,hw,hrep⟩ := h.content
      have hl := h.locals a i hi
      rcases filterDelMac_vepa (p := p) (y := y) hw hr hi with
        ⟨hk,heq⟩ | ⟨hk,hg,hst,hobj⟩ | ⟨hk,hg,heq⟩
      · rw [heq,recordDel_failed efail_ne_sok]
        refine ⟨⟨m,h⟩,fun j _ hmem => ?_⟩
        exact absurd (h.content.known_iff.mpr (hl.known_of_mem hmem)) hk
      · have hmem : (v,p) ∉ s.adds a := fun hmem => hg (hown hmem).2
        have habsent := delAddr_absent hrep fun hn => hmem (hl.port_iff.mp hn)
        rw [recordDel_failed hst,hobj,habsent]
        refine ⟨⟨m,?_⟩,fun j _ hmem' => absurd hmem' hmem⟩
        change AgreeInv ⟨{ s.obj with vepa := some w },s.adds⟩ m
        rw [← hw]
        exact h
      · have hmem : (v,p) ∈ s.adds a := by
          by_contra hmem
          exact hother hmem hk hg
        rw [recordDel_eq_afterDel heq]
        refine ⟨⟨_,h.afterDel hrep hi (hown hmem).1 hg.1⟩,fun _ _ _ => ?_⟩
        rw [heq]

/-- A delete that goes through and after which the shared addresses agree
takes the only outstanding add of its port. -/
theorem AgreeInv.count_of_afterDel {w : VepaTable.VepaObj} (h : AgreeInv s m)
    (hrep : Represents w.remoteCoreVepaTable m) (hi : getSharedMcastInfo s.obj a = some i)
    (hpos : (s.obj.sharedMcast i).refCnt ≠ 0#32) (hP : Agreement (McastVepa.afterDel s w i p a v)) :
    (s.adds a).count (v,p) = 1 := by
  have hl := h.locals a i hi
  have hfound : getSharedMcastInfo (McastVepa.afterDel s w i p a v).obj a = some i :=
    ((McastExclusive.sameLists_setRefCnt i _ _ _).shared a).trans hi
  have hadds : (McastVepa.afterDel s w i p a v).adds a = (s.adds a).erase (v,p) :=
    update_self ..
  have hok := hP a i hfound
  have hmem : (v,p) ∈ s.adds a := by
    by_contra hmem
    have hrefs := hok.refs
    rw [hadds,List.erase_of_not_mem hmem,← hl.refs] at hrefs
    change ((setRefCnt s.obj i _).sharedMcast i).refCnt.toNat = _ at hrefs
    rw [setRefCnt_self,toNat_pred hpos] at hrefs
    exact hpos (BitVec.eq_of_toNat_eq (by simp only [BitVec.toNat_ofNat]; omega))
  have hdrop := (hrep.delAddr (hl.port_iff.mpr hmem)).2
  have hcontent : Content (McastVepa.afterDel s w i p a v).obj (dropPort m (a,v) p.val.toNat) :=
    ⟨_,rfl,hdrop⟩
  have hgone : (v,p) ∉ (s.adds a).erase (v,p) := by
    rw [← hadds,← hok.ports,hcontent.portSet_iff,portsAt_dropPort]
    exact Finset.notMem_erase _ _
  have hzero := List.count_eq_zero_of_not_mem hgone
  have hone := List.count_pos_iff.mpr hmem
  rw [List.count_erase_self] at hzero
  omega

/-- A delete that succeeded when its add was outstanding, and after which the
shared addresses agree, met its condition. -/
theorem AgreeInv.del_needs (h : AgreeInv s m) (hP : Agreement (step s (.del p a v y)))
    (hQ : DeletesSucceed s (.del p a v y)) : KeepsAgreement s (.del p a v y) := by
  intro i hi hr
  dsimp only [step,DeletesSucceed] at hP hQ
  obtain ⟨w,hw,hrep⟩ := h.content
  have hl := h.locals a i hi
  rcases filterDelMac_vepa (p := p) (y := y) hw hr hi with
    ⟨hk,heq⟩ | ⟨hk,hg,hst,-⟩ | ⟨hk,hg,heq⟩
  · refine ⟨fun hmem => ?_,fun _ hk' => absurd hk' hk⟩
    exact absurd (h.content.known_iff.mpr (hl.known_of_mem hmem)) hk
  · exact ⟨fun hmem => absurd (hQ i hi hmem) hst,fun _ _ => hg⟩
  · rw [recordDel_eq_afterDel heq] at hP
    have hcount := h.count_of_afterDel hrep hi hg.1 hP
    refine ⟨fun _ => ⟨hcount,hg⟩,fun hmem => ?_⟩
    rw [List.count_eq_zero_of_not_mem hmem] at hcount
    exact absurd hcount.symm Nat.one_ne_zero

/-- From an agreement, an event keeps it, and its delete succeeds, exactly
under its condition. -/
theorem step_agreement_iff (h : AgreeInv s m) (e : Event) :
    Agreement (step s e) ∧ DeletesSucceed s e ↔ KeepsAgreement s e := by
  cases e with
  | add p a v x =>
    constructor
    · exact fun hP => h.add_needs hP.1
    · intro hG
      obtain ⟨m',h'⟩ := h.add hG
      exact ⟨h'.agreement,trivial⟩
  | del p a v y =>
    constructor
    · exact fun hP => h.del_needs hP.1 hP.2
    · intro hG
      obtain ⟨⟨m',h'⟩,hQ⟩ := h.del hG
      exact ⟨h'.agreement,hQ⟩

theorem step_agreeInv (h : AgreeInv s m) {e : Event} (hG : KeepsAgreement s e) :
    ∃ m', AgreeInv (step s e) m' := by
  cases e with
  | add p a v x => exact h.add hG
  | del p a v y => exact (h.del hG).1

end Invariant

section Start

variable {ale : MacAddr → Option U32} {vepa : VepaTable.VepaObj} {shared : List McastCfg}
  {rsvd : List RsvdMcast} {switchPortMask macOnlyPortMask : U32} {m : PortMap}

theorem getSharedMcastCfg_vepa (o : McastObj) (cfg : List McastCfg) :
    (getSharedMcastCfg o cfg).2.vepa = o.vepa := by
  unfold getSharedMcastCfg
  split
  · rfl
  · dsimp only
    split <;> rfl

theorem getRsvdMcastCfg_vepa (o : McastObj) (cfg : List RsvdMcast) :
    (getRsvdMcastCfg o cfg).2.vepa = o.vepa := by
  unfold getRsvdMcastCfg
  split
  · rfl
  · dsimp only
    split <;> rfl

/-- Initialisation leaves the VEPA object alone. -/
theorem init_vepa (o : McastObj) (shared : List McastCfg) (rsvd : List RsvdMcast) (m n : U32) :
    (init o shared rsvd m n).2.vepa = o.vepa := by
  have hshared := getSharedMcastCfg_vepa (zeroed o.ale o.vepa) shared
  have hrsvd := getRsvdMcastCfg_vepa (getSharedMcastCfg (zeroed o.ale o.vepa) shared).2 rsvd
  unfold init
  dsimp only
  split
  · split
    · exact hrsvd.trans hshared
    · exact hrsvd.trans hshared
  · exact hshared

/-- An address that is shared after initialisation is in the configuration. -/
theorem mem_of_found {a : MacAddr} {i : Fin sharedMcastListLen}
    (hi : getSharedMcastInfo (startUp ale vepa shared rsvd switchPortMask macOnlyPortMask).obj a =
      some i) : ∃ c ∈ shared, c.macAddr = a := by
  obtain ⟨hcount,hmac⟩ := (getSharedMcastInfo_eq_some_iff.mp hi).1
  by_cases hacc : AcceptedShared shared
  · obtain ⟨hlen,-,htable⟩ := init_accepted hacc (zeroed ale (some vepa)) rsvd switchPortMask
      macOnlyPortMask
    have hlt : i.val < shared.length := hlen ▸ hcount
    have hentry : (startUp ale vepa shared rsvd switchPortMask macOnlyPortMask).obj.sharedMcast i =
        (shared[i.val]?).elim ⟨VepaTable.zeroAddr,0#32,0#32,0#32⟩ sharedEntry := htable i
    rw [hentry,List.getElem?_eq_getElem hlt] at hmac
    exact ⟨_,List.getElem_mem hlt,hmac⟩
  · change i.val < (init (zeroed ale (some vepa)) shared rsvd switchPortMask
      macOnlyPortMask).2.sharedLen at hcount
    rw [init_rejected hacc] at hcount
    exact absurd hcount (Nat.not_lt_zero _)

/-- Initialisation starts with an agreement when the ALE and the VEPA table
are clear of the shared addresses. -/
theorem agreeInv_startUp (hrep : Represents vepa.remoteCoreVepaTable m)
    (hfree : ∀ c ∈ shared, ∀ v, (c.macAddr,v) ∉ m)
    (hclear : McastOwnership.StartsClear ale shared) :
    AgreeInv (startUp ale vepa shared rsvd switchPortMask macOnlyPortMask) m := by
  have hown : McastOwnership.OwnershipOk
      (McastOwnership.startUp ale (some vepa) shared rsvd switchPortMask macOnlyPortMask) :=
    McastOwnership.startUp_ownershipOk_iff.mpr hclear
  refine ⟨⟨vepa,init_vepa _ shared rsvd switchPortMask macOnlyPortMask,hrep⟩,fun a i hi => ?_⟩
  obtain ⟨c,hc,rfl⟩ := mem_of_found hi
  have hok := hown _ i hi
  refine ⟨fun v n => iff_of_false (fun hn => hfree c hc v (mem_of_portsAt hn)) ?_,hok.refs,
    fun _ => ?_,fun v p hp => absurd hp List.not_mem_nil⟩
  · rintro ⟨p,hp,-⟩
    exact absurd hp List.not_mem_nil
  · by_contra hne
    exact hok.programmed.mp hne rfl

/-- An agreement at the start needs a clear ALE. -/
theorem startsClear_of_agreement
    (h : Agreement (startUp ale vepa shared rsvd switchPortMask macOnlyPortMask)) :
    McastOwnership.StartsClear ale shared := by
  intro hacc c hc
  obtain ⟨i,hi⟩ := McastOwnership.found_of_mem hacc hc ale (some vepa) rsvd switchPortMask
    macOnlyPortMask
  have hale : (startUp ale vepa shared rsvd switchPortMask macOnlyPortMask).obj.ale = ale :=
    (init_accepted hacc (zeroed ale (some vepa)) rsvd switchPortMask macOnlyPortMask).2.1
  have hnone := (h c.macAddr i hi).removed rfl
  rwa [hale] at hnone

/-- In every run of filter requests by any ports, in a build with VEPA whose
table starts without shared addresses: counts, VEPA table and ALE agree with
the outstanding adds of every shared address in every state, and every
delete of an outstanding add succeeds, exactly when the ALE starts clear of
the shared addresses and every event meets its condition. -/
theorem agreement_kept_iff (ale : MacAddr → Option U32) (vepa : VepaTable.VepaObj)
    (shared : List McastCfg) (rsvd : List RsvdMcast) (switchPortMask macOnlyPortMask : U32)
    (hrep : Represents vepa.remoteCoreVepaTable m)
    (hfree : ∀ c ∈ shared, ∀ v, (c.macAddr,v) ∉ m) (events : List Event) :
    Along step Agreement (startUp ale vepa shared rsvd switchPortMask macOnlyPortMask) events ∧
        Guarded step DeletesSucceed
          (startUp ale vepa shared rsvd switchPortMask macOnlyPortMask) events ↔
      McastOwnership.StartsClear ale shared ∧ Guarded step KeepsAgreement
        (startUp ale vepa shared rsvd switchPortMask macOnlyPortMask) events := by
  generalize hstart : startUp ale vepa shared rsvd switchPortMask macOnlyPortMask = s
  have hruns : (∃ m, AgreeInv s m) →
      (Along step Agreement s events ∧ Guarded step DeletesSucceed s events ↔
        Guarded step KeepsAgreement s events) := by
    apply along_and_guarded_iff (I := fun s => ∃ m, AgreeInv s m)
    · rintro s ⟨m,h⟩
      exact h.agreement
    · rintro s e ⟨m,h⟩ hG
      exact step_agreeInv h hG
    · rintro s e ⟨m,h⟩
      exact step_agreement_iff h e
  have hinv : McastOwnership.StartsClear ale shared → ∃ m, AgreeInv s m := by
    intro hclear
    rw [← hstart]
    exact ⟨m,agreeInv_startUp hrep hfree hclear⟩
  constructor
  · intro h
    have hs := along_start h.1
    rw [← hstart] at hs
    have hclear := startsClear_of_agreement hs
    exact ⟨hclear,(hruns (hinv hclear)).mp h⟩
  · rintro ⟨hclear,hk⟩
    exact (hruns (hinv hclear)).mpr hk

/-- An initialised VEPA object with a packet duplication flow. -/
def vepaStart : VepaTable.VepaObj :=
  { (VepaTable.init true ⟨VepaTable.flushTable,0#32⟩).2 with packetDuplicationFlowIdx := 3#32 }

/-- The configuration of one shared address. -/
def oneAddr : List McastCfg := [⟨McastOwnership.groupAddr,0b11101#32,0x1E000000#32⟩]

/-- A filter with one shared address in a build with VEPA. -/
def oneShared : Filter := startUp (fun _ => none) vepaStart oneAddr [] 0b1110#32 0b0001#32

/-- A port adds the address. -/
def addOnce : Event := .add switchPort McastOwnership.groupAddr 0#16 ⟨sok,sok,sok⟩

/-- The port deletes it. -/
def delOnce : Event := .del switchPort McastOwnership.groupAddr 0#16 ⟨sok,sok⟩

/-- An add and its delete keep the agreement. -/
theorem agreement_kept_for_one_add :
    Along step Agreement oneShared [addOnce,delOnce] ∧
      Guarded step DeletesSucceed oneShared [addOnce,delOnce] := by
  have hrep : Represents vepaStart.remoteCoreVepaTable ∅ := represents_init _
  have hclear : McastOwnership.StartsClear (fun _ => none) oneAddr := fun _ _ _ => rfl
  refine (agreement_kept_iff (fun _ => none) vepaStart oneAddr [] 0b1110#32 0b0001#32 hrep
    (fun _ _ _ => Finmap.notMem_empty) [addOnce,delOnce]).mpr ⟨hclear,?_,?_,trivial⟩
  · intro i hi _
    have hzero : i = ⟨0,by decide⟩ := Option.some.inj (hi.symm.trans (by decide))
    subst hzero
    refine ⟨fun _ => ⟨by decide,.inr ?_⟩,fun _ _ w hw => ?_⟩
    · intro w hw
      obtain rfl := Option.some.inj hw
      decide
    · obtain rfl := Option.some.inj hw
      decide
  · intro i hi _
    have hzero : i = ⟨0,by decide⟩ := Option.some.inj (hi.symm.trans (by decide))
    subst hzero
    refine ⟨fun _ => ⟨by decide,by decide,fun _ => ⟨fun _ => rfl,rfl⟩⟩,fun hno => ?_⟩
    exact absurd (by decide) hno

/-- A port adds the address twice: its first delete clears the only bit, and
the second one fails. -/
theorem second_delete_fails :
    ¬ (Along step Agreement oneShared [addOnce,addOnce,delOnce,delOnce] ∧
      Guarded step DeletesSucceed oneShared [addOnce,addOnce,delOnce,delOnce]) := by
  rintro ⟨-,h⟩
  have hok := h.2.2.2.1 ⟨0,by decide⟩ (by decide +kernel) (by decide +kernel)
  revert hok
  decide +kernel

end Start

end EthernetFirmware.McastVepa
