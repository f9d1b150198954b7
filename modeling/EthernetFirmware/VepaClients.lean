import EthernetFirmware.GuardedRuns
import EthernetFirmware.VepaMap

/-!
# Clients of the VEPA table

Registering a client gives its virtual port a private VLAN and a policer,
remembers its address and adds the port to the broadcast entry of the VEPA
table; the first client also installs the policer for broadcast
duplication, and the last one that leaves removes it. Whether a client is
the first or the last is read off the table. Status codes of the ioctls
are inputs; a failing ioctl leaves the hardware alone.
-/

namespace EthernetFirmware.VepaClients

open Function BitMasks GuardedRuns RemoteConfig VepaTable VepaMap

/-- What the VEPA object keeps of its clients, with the hardware behind it. -/
structure Clients where
  /-- Private VLAN of each virtual port. -/
  privVlanCfg : PortId → U16
  /-- Address of each registered virtual port. -/
  virtPortToMacAddr : PortId → MacAddr
  /-- Private VLANs in the ALE. -/
  aleVlan : U16 → Bool
  /-- Flow of the policer of each private VLAN. -/
  vlanPolicer : U16 → Option U32
  /-- The policer for broadcast duplication is installed. -/
  bcastPolicer : Bool

/-- The VEPA object. -/
structure Vepa where
  /-- Table and duplication flow. -/
  obj : VepaObj
  /-- Clients. -/
  clients : Clients

/-- Status codes of the ioctls of a registration. -/
structure RegisterOutcomes where
  /-- `CPSW_ALE_IOCTL_ADD_VLAN`. -/
  addVlan : Status
  /-- The ioctl that sets the policer of the private VLAN. -/
  setVlanPolicer : Status
  /-- The ioctl that sets the policer for broadcast duplication. -/
  setBcastPolicer : Status

/-- Status codes of the ioctls that undo a registration. -/
structure UnregisterOutcomes where
  /-- The ioctl that deletes the policer of the private VLAN and the VLAN. -/
  delVlanPolicer : Status
  /-- The ioctl that deletes the policer for broadcast duplication. -/
  delBcastPolicer : Status

/-- What a call leaves. -/
structure Called where
  /-- Status the call returns. -/
  status : Status
  /-- Statuses of its ALE, policer and table steps, in order. -/
  steps : List Status
  /-- The VEPA object. -/
  vepa : Vepa

/-- The table is replaced. -/
def Vepa.withTable (o : Vepa) (t : Table) : Vepa :=
  { o with obj := { o.obj with remoteCoreVepaTable := t } }

/-- The table. -/
def Vepa.table (o : Vepa) : Table := o.obj.remoteCoreVepaTable

/-- The broadcast entry is in the table. -/
abbrev Vepa.BcastKnown (o : Vepa) : Prop := Known o.table MacAddr.bcast 0#16

/-- The private VLAN of a port is added to the ALE. -/
def Clients.addVlan (c : Clients) (virtPort : PortId) : Clients :=
  { c with aleVlan := update c.aleVlan (c.privVlanCfg virtPort) true }

/-- The policer of the private VLAN of a port is set, and the address of the
port is saved. -/
def Clients.attach (c : Clients) (flowIdx : U32) (virtPort : PortId) (srcAddr : MacAddr) :
    Clients :=
  { c with vlanPolicer := update c.vlanPolicer (c.privVlanCfg virtPort) (some flowIdx)
           virtPortToMacAddr := update c.virtPortToMacAddr virtPort srcAddr }

/-- Policer and VLAN of a port are deleted, and its address is cleared. -/
def Clients.detach (c : Clients) (virtPort : PortId) : Clients :=
  { c with aleVlan := update c.aleVlan (c.privVlanCfg virtPort) false
           vlanPolicer := update c.vlanPolicer (c.privVlanCfg virtPort) none
           virtPortToMacAddr := update c.virtPortToMacAddr virtPort zeroAddr }

/-- `EthFwVepa_registerClient`. The status of the policer for broadcast
duplication is overwritten by that of the table. -/
def registerClient (o : Vepa) (flowIdx : U32) (virtPort : PortId) (srcAddr : MacAddr)
    (x : RegisterOutcomes) : Called :=
  if x.addVlan = sok then
    let c := o.clients.addVlan virtPort
    if x.setVlanPolicer = sok then
      let c := c.attach flowIdx virtPort srcAddr
      let r := addAddr o.table MacAddr.bcast 0#16 virtPort
      if o.BcastKnown then
        ⟨r.1,[x.addVlan,x.setVlanPolicer,r.1],{ o.withTable r.2 with clients := c }⟩
      else
        let policer := addMcastPolicer o.obj x.setBcastPolicer
        let c := if policer = sok then { c with bcastPolicer := true } else c
        ⟨r.1,[x.addVlan,x.setVlanPolicer,policer,r.1],{ o.withTable r.2 with clients := c }⟩
    else ⟨x.setVlanPolicer,[x.addVlan,x.setVlanPolicer],{ o with clients := c }⟩
  else ⟨x.addVlan,[x.addVlan],o⟩

/-- `EthFwVepa_unregisterClient`. When no port is left in the broadcast
entry, the status of the table is overwritten by that of the policer. -/
def unregisterClient (o : Vepa) (virtPort : PortId) (x : UnregisterOutcomes) : Called :=
  if x.delVlanPolicer = sok then
    let c := o.clients.detach virtPort
    let r := delAddr o.table MacAddr.bcast 0#16 virtPort
    if Known r.2 MacAddr.bcast 0#16 then
      ⟨r.1,[x.delVlanPolicer,r.1],{ o.withTable r.2 with clients := c }⟩
    else
      let policer := delMcastPolicer x.delBcastPolicer
      let c := if policer = sok then { c with bcastPolicer := false } else c
      ⟨policer,[x.delVlanPolicer,r.1,policer],{ o.withTable r.2 with clients := c }⟩
  else ⟨x.delVlanPolicer,[x.delVlanPolicer],o⟩

/-- The object with the record of its clients. -/
structure Registry where
  /-- The VEPA object. -/
  vepa : Vepa
  /-- Ports whose last successful call is a registration. -/
  registered : Finset PortId

/-- Calls of the server. -/
inductive Event where
  /-- `EthFwVepa_registerClient`. -/
  | register (flowIdx : U32) (virtPort : PortId) (srcAddr : MacAddr) (x : RegisterOutcomes)
  /-- `EthFwVepa_unregisterClient`. -/
  | unregister (virtPort : PortId) (x : UnregisterOutcomes)

/-- The call of an event. -/
def call (o : Vepa) : Event → Called
  | .register flowIdx virtPort srcAddr x => registerClient o flowIdx virtPort srcAddr x
  | .unregister virtPort x => unregisterClient o virtPort x

/-- The record after a call that succeeds. -/
def recorded (ps : Finset PortId) : Event → Finset PortId
  | .register _ virtPort _ _ => insert virtPort ps
  | .unregister virtPort _ => ps.erase virtPort

/-- State after an event. -/
def step (s : Registry) (e : Event) : Registry :=
  let r := call s.vepa e
  ⟨r.vepa,if r.status = sok then recorded s.registered e else s.registered⟩

/-- Bits of a set of ports. -/
def portBits (ps : Finset PortId) : Finset ℕ := ps.image fun p => p.val.toNat

/-- Policer and broadcast entry agree with the record. -/
structure Tracks (s : Registry) : Prop where
  /-- The policer is installed exactly when there is a client. -/
  policer : s.vepa.clients.bcastPolicer = true ↔ s.registered.Nonempty
  /-- The broadcast entry is live exactly when there is a client. -/
  live : s.vepa.BcastKnown ↔ s.registered.Nonempty
  /-- Its port mask is the set of clients. -/
  mask : ∀ mask, getVirtPortMask s.vepa.table MacAddr.bcast 0#16 = some mask →
    members mask = portBits s.registered

/-- What a call must do: after a success everything agrees, and no failed
step is reported as a success. -/
def StepOk (s : Registry) (e : Event) : Prop :=
  let r := call s.vepa e
  (r.status = sok → Tracks (step s e)) ∧ ((∃ st ∈ r.steps, st ≠ sok) → r.status ≠ sok)

/-- The condition: a call that gets past the private VLAN finds the broadcast
entry in the table. Without it, a registration must install the policer,
find room in the table and be of the only client still recorded, and the
removal of the policer must fail. -/
def Regular (s : Registry) : Event → Prop
  | .register _ p _ x => x.addVlan = sok → x.setVlanPolicer = sok → ¬ s.vepa.BcastKnown →
    addMcastPolicer s.vepa.obj x.setBcastPolicer = sok ∧ HasRoom s.vepa.table ∧
      ∀ q ∈ s.registered, q = p
  | .unregister _ x => x.delVlanPolicer = sok → ¬ s.vepa.BcastKnown →
    delMcastPolicer x.delBcastPolicer ≠ sok

/-- No client yet: the table holds entries of other addresses only. -/
structure Idle (s : Registry) : Prop where
  /-- The table holds a map without the broadcast entry. -/
  table : ∃ m, Represents s.vepa.table m ∧ (MacAddr.bcast,0#16) ∉ m
  /-- The policer is not installed. -/
  policer : s.vepa.clients.bcastPolicer = false
  /-- No port is recorded. -/
  registered : s.registered = ∅

section Calls

variable {o : Vepa} {flowIdx : U32} {p : PortId} {a : MacAddr} {x : RegisterOutcomes}
  {y : UnregisterOutcomes}

/-- A registration stopped by the private VLAN fails and leaves table and
duplication alone. -/
theorem registerClient_refused (h : ¬ (x.addVlan = sok ∧ x.setVlanPolicer = sok)) :
    (registerClient o flowIdx p a x).status ≠ sok ∧
      (registerClient o flowIdx p a x).vepa.obj = o.obj ∧
      (registerClient o flowIdx p a x).vepa.clients.bcastPolicer = o.clients.bcastPolicer := by
  unfold registerClient
  by_cases hv : x.addVlan = sok
  · have hp : x.setVlanPolicer ≠ sok := fun hp => h ⟨hv,hp⟩
    rw [if_pos hv,if_neg hp]
    exact ⟨hp,rfl,rfl⟩
  · rw [if_neg hv]
    exact ⟨hv,rfl,rfl⟩

/-- A registration that gets past the private VLAN. -/
theorem registerClient_goes (o : Vepa) (flowIdx : U32) (p : PortId) (a : MacAddr)
    (hv : x.addVlan = sok) (hp : x.setVlanPolicer = sok) :
    (registerClient o flowIdx p a x).status = sok ∧
      (registerClient o flowIdx p a x).vepa.obj =
        (o.withTable (addAddr o.table MacAddr.bcast 0#16 p).2).obj ∧
      (registerClient o flowIdx p a x).vepa.clients = { (o.clients.addVlan p).attach flowIdx p a
        with bcastPolicer := o.clients.bcastPolicer || !decide o.BcastKnown &&
          decide (addMcastPolicer o.obj x.setBcastPolicer = sok) } ∧
      ((∃ st ∈ (registerClient o flowIdx p a x).steps, st ≠ sok) ↔
        ¬ o.BcastKnown ∧ addMcastPolicer o.obj x.setBcastPolicer ≠ sok) := by
  unfold registerClient
  rw [if_pos hv,if_pos hp]
  by_cases hk : o.BcastKnown
  · rw [if_pos hk]
    refine ⟨addAddr_status,rfl,?_,?_⟩
    · simp [hk,Clients.attach,Clients.addVlan]
    · simp [hk,hv,hp]
  · rw [if_neg hk]
    refine ⟨addAddr_status,rfl,?_,?_⟩
    · by_cases hb : addMcastPolicer o.obj x.setBcastPolicer = sok
      · simp [hk,hb]
      · simp [hk,hb,Clients.attach,Clients.addVlan]
    · simp [hk,hv,hp]

/-- An unregistration stopped by the private VLAN fails without effect. -/
theorem unregisterClient_refused (h : y.delVlanPolicer ≠ sok) :
    unregisterClient o p y = ⟨y.delVlanPolicer,[y.delVlanPolicer],o⟩ := by
  unfold unregisterClient
  rw [if_neg h]

/-- An unregistration that leaves a port in the broadcast entry. -/
theorem unregisterClient_others (h : y.delVlanPolicer = sok)
    (hk : Known (delAddr o.table MacAddr.bcast 0#16 p).2 MacAddr.bcast 0#16) :
    unregisterClient o p y =
      ⟨(delAddr o.table MacAddr.bcast 0#16 p).1,
        [y.delVlanPolicer,(delAddr o.table MacAddr.bcast 0#16 p).1],
        { o.withTable (delAddr o.table MacAddr.bcast 0#16 p).2 with
          clients := o.clients.detach p }⟩ := by
  unfold unregisterClient
  rw [if_pos h,if_pos hk]

/-- An unregistration after which the broadcast entry is gone. -/
theorem unregisterClient_last (h : y.delVlanPolicer = sok)
    (hk : ¬ Known (delAddr o.table MacAddr.bcast 0#16 p).2 MacAddr.bcast 0#16) :
    unregisterClient o p y =
      ⟨delMcastPolicer y.delBcastPolicer,
        [y.delVlanPolicer,(delAddr o.table MacAddr.bcast 0#16 p).1,
          delMcastPolicer y.delBcastPolicer],
        { o.withTable (delAddr o.table MacAddr.bcast 0#16 p).2 with
          clients := { o.clients.detach p with
            bcastPolicer := o.clients.bcastPolicer &&
              !decide (delMcastPolicer y.delBcastPolicer = sok) } }⟩ := by
  unfold unregisterClient
  rw [if_pos h,if_neg hk]
  by_cases hb : delMcastPolicer y.delBcastPolicer = sok
  · simp [hb]
  · simp [hb,Clients.detach]

/-- Table, VLANs and status after an unregistration that gets past the private
VLAN. -/
theorem unregisterClient_goes (o : Vepa) (p : PortId) (h : y.delVlanPolicer = sok) :
    (unregisterClient o p y).vepa.table = (delAddr o.table MacAddr.bcast 0#16 p).2 ∧
      (unregisterClient o p y).vepa.clients.privVlanCfg = o.clients.privVlanCfg ∧
      (unregisterClient o p y).vepa.clients.aleVlan =
        update o.clients.aleVlan (o.clients.privVlanCfg p) false ∧
      (unregisterClient o p y).status =
        if Known (delAddr o.table MacAddr.bcast 0#16 p).2 MacAddr.bcast 0#16 then
          (delAddr o.table MacAddr.bcast 0#16 p).1
        else y.delBcastPolicer := by
  by_cases hk : Known (delAddr o.table MacAddr.bcast 0#16 p).2 MacAddr.bcast 0#16
  · rw [unregisterClient_others h hk,if_pos hk]
    exact ⟨rfl,rfl,rfl,rfl⟩
  · rw [unregisterClient_last h hk,if_neg hk]
    exact ⟨rfl,rfl,rfl,rfl⟩

end Calls

section Bits

variable {p : PortId} {ps : Finset PortId}

theorem mem_portBits : p.val.toNat ∈ portBits ps ↔ p ∈ ps := by
  unfold portBits
  rw [Finset.mem_image]
  constructor
  · rintro ⟨q,hq,hqp⟩
    obtain rfl : q = p := Subtype.ext (BitVec.eq_of_toNat_eq hqp)
    exact hq
  · exact fun hp => ⟨p,hp,rfl⟩

theorem portBits_insert : portBits (insert p ps) = insert p.val.toNat (portBits ps) :=
  Finset.image_insert ..

theorem portBits_erase : portBits (ps.erase p) = (portBits ps).erase p.val.toNat := by
  unfold portBits
  refine Finset.image_erase ?_ ps p
  exact fun q r hqr => Subtype.ext (BitVec.eq_of_toNat_eq hqr)

theorem portBits_nonempty : (portBits ps).Nonempty ↔ ps.Nonempty := Finset.image_nonempty

end Bits

section Runs

variable {s : Registry} {m : PortMap} {p : PortId}

/-- Address and VLAN of the broadcast entry. -/
abbrev bcastKey : Key := (MacAddr.bcast,0#16)

/-- Policer and map agree with the record. -/
structure Agreed (s : Registry) (m : PortMap) : Prop where
  /-- The policer is installed exactly when there is a client. -/
  policer : s.vepa.clients.bcastPolicer = true ↔ s.registered.Nonempty
  /-- The ports of the broadcast entry are the clients. -/
  ports : portsAt m bcastKey = portBits s.registered

/-- The last client has left the table, but its policer could not be removed
and the call failed. -/
structure Stuck (s : Registry) (m : PortMap) : Prop where
  /-- There is no broadcast entry. -/
  gone : portsAt m bcastKey = ∅
  /-- One client is still recorded. -/
  single : ∃ p, s.registered = {p}

/-- What calls that meet the condition keep. -/
def Inv (s : Registry) : Prop :=
  ∃ m, Represents s.vepa.table m ∧ (Agreed s m ∨ Stuck s m)

theorem Idle.inv (h : Idle s) : Inv s := by
  obtain ⟨m,hrep,hno⟩ := h.table
  refine ⟨m,hrep,Or.inl ⟨by simp [h.policer,h.registered],?_⟩⟩
  rw [h.registered,portsAt,Finmap.lookup_eq_none.mpr hno]
  rfl

/-- The agreement, read off the map. -/
theorem tracks_iff (hrep : Represents s.vepa.table m) : Tracks s ↔ Agreed s m := by
  have hknown : s.vepa.BcastKnown ↔ (portsAt m bcastKey).Nonempty := hrep.known_iff_nonempty
  constructor
  · intro h
    refine ⟨h.policer,?_⟩
    by_cases hk : s.vepa.BcastKnown
    · obtain ⟨i,hi⟩ := Option.isSome_iff_exists.mp hk
      have hmask : getVirtPortMask s.vepa.table MacAddr.bcast 0#16 =
          some (s.vepa.table i).virtPortMask := by
        rw [getVirtPortMask,hi]
        rfl
      rw [← hrep.members_of_getMask hmask,h.mask _ hmask]
    · have hp : portsAt m bcastKey = ∅ := Finset.not_nonempty_iff_eq_empty.mp (mt hknown.mpr hk)
      have hr : s.registered = ∅ := Finset.not_nonempty_iff_eq_empty.mp (mt h.live.mpr hk)
      rw [hp,hr]
      rfl
  · intro h
    refine ⟨h.policer,?_,fun mask hm => ?_⟩
    · rw [hknown,h.ports,portBits_nonempty]
    · rw [hrep.members_of_getMask hm,h.ports]

/-- A call is right and keeps the invariant when its failed steps are
reported and the map agrees with the record it leaves. -/
theorem of_call {e : Event}
    (hfail : (∃ st ∈ (call s.vepa e).steps, st ≠ sok) → (call s.vepa e).status ≠ sok)
    (hrep : Represents (call s.vepa e).vepa.table m)
    (hok : (call s.vepa e).status = sok →
      Agreed ⟨(call s.vepa e).vepa,recorded s.registered e⟩ m)
    (hno : (call s.vepa e).status ≠ sok →
      Agreed ⟨(call s.vepa e).vepa,s.registered⟩ m ∨
        Stuck ⟨(call s.vepa e).vepa,s.registered⟩ m) :
    StepOk s e ∧ Inv (step s e) := by
  by_cases hst : (call s.vepa e).status = sok
  · have hstep : step s e = ⟨(call s.vepa e).vepa,recorded s.registered e⟩ := by
      unfold step
      dsimp only
      rw [if_pos hst]
    unfold StepOk
    rw [hstep]
    exact ⟨⟨fun _ => (tracks_iff hrep).mpr (hok hst),hfail⟩,m,hrep,Or.inl (hok hst)⟩
  · have hstep : step s e = ⟨(call s.vepa e).vepa,s.registered⟩ := by
      unfold step
      dsimp only
      rw [if_neg hst]
    rw [hstep]
    exact ⟨⟨fun h => absurd h hst,fun _ => hst⟩,m,hrep,hno hst⟩

/-- A failing call that leaves table and policer alone is right and keeps the
invariant. -/
theorem of_refused {e : Event} (hI : Inv s) (hst : (call s.vepa e).status ≠ sok)
    (hobj : (call s.vepa e).vepa.table = s.vepa.table)
    (hb : (call s.vepa e).vepa.clients.bcastPolicer = s.vepa.clients.bcastPolicer) :
    StepOk s e ∧ Inv (step s e) := by
  obtain ⟨m,hrep,hm⟩ := hI
  refine of_call (m := m) (fun _ => hst) (hobj ▸ hrep) (fun h => absurd h hst) fun _ => ?_
  rcases hm with hm | hm
  · exact Or.inl ⟨hb ▸ hm.policer,hm.ports⟩
  · exact Or.inr ⟨hm.gone,hm.single⟩

/-- The only recorded client is the one that registers. -/
theorem portBits_insert_eq_singleton_iff {ps : Finset PortId} :
    portBits (insert p ps) = {p.val.toNat} ↔ ∀ q ∈ ps, q = p := by
  constructor
  · intro h q hq
    have hmem : q.val.toNat ∈ portBits (insert p ps) :=
      mem_portBits.mpr (Finset.mem_insert_of_mem hq)
    rw [h,Finset.mem_singleton] at hmem
    exact Subtype.ext (BitVec.eq_of_toNat_eq hmem)
  · intro h
    have hins : insert p ps = {p} := by
      ext q
      rw [Finset.mem_insert,Finset.mem_singleton]
      exact or_iff_left_of_imp (h q)
    rw [hins]
    rfl

/-- The policer is installed while the broadcast entry is in the table. -/
theorem Agreed.policer_of_known (hm : Agreed s m) (hrep : Represents s.vepa.table m)
    (hk : s.vepa.BcastKnown) : s.vepa.clients.bcastPolicer = true := by
  rw [hm.policer,← portBits_nonempty,← hm.ports]
  exact hrep.known_iff_nonempty.mp hk

/-- A registration that finds the broadcast entry. -/
theorem register_known {flowIdx : U32} {a : MacAddr} {x : RegisterOutcomes}
    (hrep : Represents s.vepa.table m) (hm : Agreed s m) (hk : s.vepa.BcastKnown)
    (hv : x.addVlan = sok) (hp : x.setVlanPolicer = sok) :
    StepOk s (.register flowIdx p a x) ∧ Inv (step s (.register flowIdx p a x)) := by
  obtain ⟨hst,hobj,hcl,hsteps⟩ := registerClient_goes s.vepa flowIdx p a hv hp
  have hpol := hm.policer_of_known hrep hk
  have htab : (call s.vepa (.register flowIdx p a x)).vepa.table =
      (addAddr s.vepa.table MacAddr.bcast 0#16 p).2 :=
    congrArg VepaObj.remoteCoreVepaTable hobj
  refine of_call (m := m.insert bcastKey (insert p.val.toNat (portsAt m bcastKey)))
    (fun hfail => absurd hk (hsteps.mp hfail).1) ?_ (fun _ => ⟨iff_of_true ?_ ?_,?_⟩)
    (fun h => absurd hst h)
  · rw [htab]
    exact hrep.addAddr (Or.inl (hrep.known_iff.mp hk))
  · change (registerClient s.vepa flowIdx p a x).vepa.clients.bcastPolicer = true
    rw [hcl]
    simp [hpol]
  · exact Finset.insert_nonempty ..
  · rw [portsAt_insert,hm.ports]
    exact portBits_insert.symm

/-- A registration whose VLAN goes through records the client and its port. -/
theorem register_goes (s : Registry) (flowIdx : U32) (p : PortId) (a : MacAddr)
    {x : RegisterOutcomes} (hv : x.addVlan = sok) (hp : x.setVlanPolicer = sok) :
    (step s (.register flowIdx p a x)).registered = insert p s.registered ∧
      (step s (.register flowIdx p a x)).vepa.table =
        (addAddr s.vepa.table MacAddr.bcast 0#16 p).2 := by
  obtain ⟨hst,hobj,-,-⟩ := registerClient_goes s.vepa flowIdx p a hv hp
  exact ⟨if_pos hst,congrArg VepaObj.remoteCoreVepaTable hobj⟩

/-- With policer and room, a registration that does not find the broadcast entry makes one with
its port alone. -/
theorem register_makes_entry {flowIdx : U32} {a : MacAddr} {x : RegisterOutcomes}
    (hrep : Represents s.vepa.table m) (hk : ¬ s.vepa.BcastKnown)
    (hv : x.addVlan = sok) (hp : x.setVlanPolicer = sok)
    (hb : addMcastPolicer s.vepa.obj x.setBcastPolicer = sok) (hroom : HasRoom s.vepa.table) :
    ∃ m', Represents (step s (.register flowIdx p a x)).vepa.table m' ∧
      (Agreed (step s (.register flowIdx p a x)) m' ↔ ∀ q ∈ s.registered, q = p) := by
  obtain ⟨-,-,hcl,-⟩ := registerClient_goes s.vepa flowIdx p a hv hp
  obtain ⟨hreg,htab⟩ := register_goes s flowIdx p a hv hp
  have hempty : portsAt m bcastKey = ∅ :=
    Finset.not_nonempty_iff_eq_empty.mp (mt hrep.known_iff_nonempty.mpr hk)
  have hpol : (step s (.register flowIdx p a x)).vepa.clients.bcastPolicer = true := by
    change (registerClient s.vepa flowIdx p a x).vepa.clients.bcastPolicer = true
    rw [hcl]
    simp [hk,hb]
  refine ⟨m.insert bcastKey (insert p.val.toNat (portsAt m bcastKey)),?_,?_⟩
  · rw [htab]
    exact hrep.addAddr (Or.inr (hrep.room_iff.mp hroom))
  · rw [← portBits_insert_eq_singleton_iff,← hreg]
    constructor
    · intro h
      rw [← h.ports,portsAt_insert,hempty]
      rfl
    · intro h
      refine ⟨iff_of_true hpol ?_,?_⟩
      · rw [hreg]
        exact Finset.insert_nonempty ..
      · rw [portsAt_insert,hempty,h]
        rfl

/-- A registration that does not find the broadcast entry is right exactly
when it installs the policer, finds room and is of the only client. -/
theorem register_unknown {flowIdx : U32} {a : MacAddr} {x : RegisterOutcomes}
    (hrep : Represents s.vepa.table m) (hk : ¬ s.vepa.BcastKnown)
    (hv : x.addVlan = sok) (hp : x.setVlanPolicer = sok) :
    (StepOk s (.register flowIdx p a x) ↔ Regular s (.register flowIdx p a x)) ∧
      (Regular s (.register flowIdx p a x) → Inv (step s (.register flowIdx p a x))) := by
  obtain ⟨hst,-,-,hsteps⟩ := registerClient_goes s.vepa flowIdx p a hv hp
  obtain ⟨hreg,htab⟩ := register_goes s flowIdx p a hv hp
  constructor
  · constructor
    · rintro ⟨htracks,hfail⟩ - - -
      have hb : addMcastPolicer s.vepa.obj x.setBcastPolicer = sok := by
        by_contra hb
        exact hfail (hsteps.mpr ⟨hk,hb⟩) hst
      have hroom : HasRoom s.vepa.table := by
        by_contra hroom
        have hlive := (htracks hst).live.mpr (hreg ▸ Finset.insert_nonempty ..)
        rw [Vepa.BcastKnown,htab,known_addAddr_iff] at hlive
        exact hlive.elim hk hroom
      obtain ⟨m',hrep',hiff⟩ := register_makes_entry hrep hk hv hp hb hroom
      exact ⟨hb,hroom,hiff.mp ((tracks_iff hrep').mp (htracks hst))⟩
    · intro hr
      obtain ⟨hb,hroom,hall⟩ := hr hv hp hk
      obtain ⟨m',hrep',hiff⟩ := register_makes_entry hrep hk hv hp hb hroom
      refine ⟨fun _ => (tracks_iff hrep').mpr (hiff.mpr hall),fun hfail => ?_⟩
      exact absurd hb (hsteps.mp hfail).2
  · intro hr
    obtain ⟨hb,hroom,hall⟩ := hr hv hp hk
    obtain ⟨m',hrep',hiff⟩ := register_makes_entry hrep hk hv hp hb hroom
    exact ⟨m',hrep',Or.inl (hiff.mpr hall)⟩

/-- After a delete from the broadcast entry, the table holds the other
clients. -/
theorem Agreed.delAddr (hm : Agreed s m) (hrep : Represents s.vepa.table m)
    (hk : s.vepa.BcastKnown) :
    (delAddr s.vepa.table MacAddr.bcast 0#16 p).1 = sok ∧
      ∃ m', Represents (delAddr s.vepa.table MacAddr.bcast 0#16 p).2 m' ∧
        portsAt m' bcastKey = portBits (s.registered.erase p) := by
  by_cases hp : p ∈ s.registered
  · have hmem : p.val.toNat ∈ portsAt m bcastKey := by
      rw [hm.ports]
      exact mem_portBits.mpr hp
    obtain ⟨hok,hr⟩ := hrep.delAddr hmem
    refine ⟨hok,_,hr,?_⟩
    rw [portsAt_dropPort,hm.ports,portBits_erase]
  · have hmem : p.val.toNat ∉ portsAt m bcastKey := by
      rw [hm.ports]
      exact mt mem_portBits.mp hp
    rw [hrep.delAddr_absent hk hmem]
    refine ⟨rfl,m,hrep,?_⟩
    rw [hm.ports,Finset.erase_eq_of_notMem hp]

/-- An unregistration that finds the broadcast entry. -/
theorem unregister_known {y : UnregisterOutcomes} (hrep : Represents s.vepa.table m)
    (hm : Agreed s m) (hk : s.vepa.BcastKnown) (hv : y.delVlanPolicer = sok) :
    StepOk s (.unregister p y) ∧ Inv (step s (.unregister p y)) := by
  have hpol := hm.policer_of_known hrep hk
  have hsome : s.registered.Nonempty := hm.policer.mp hpol
  obtain ⟨hdel,m',hrep',hports⟩ := hm.delAddr (p := p) hrep hk
  have hknown : Known (VepaTable.delAddr s.vepa.table MacAddr.bcast 0#16 p).2 MacAddr.bcast 0#16 ↔
      (s.registered.erase p).Nonempty := by
    rw [hrep'.known_iff_nonempty,hports,portBits_nonempty]
  by_cases hleft : (s.registered.erase p).Nonempty
  · have hcall : call s.vepa (.unregister p y) = _ :=
      unregisterClient_others hv (hknown.mpr hleft)
    refine of_call (m := m') ?_ ?_ (fun _ => ⟨?_,hports⟩) (fun h => ?_)
    all_goals rw [hcall] at *
    · rintro ⟨st,hmem,hne⟩
      simp [hv,hdel] at hmem
      exact absurd hmem hne
    · exact hrep'
    · exact iff_of_true hpol hleft
    · exact absurd hdel h
  · have hcall : call s.vepa (.unregister p y) = _ :=
      unregisterClient_last hv (mt hknown.mp hleft)
    have herase : s.registered.erase p = ∅ := Finset.not_nonempty_iff_eq_empty.mp hleft
    refine of_call (m := m') ?_ ?_ (fun h => ⟨?_,hports⟩) (fun h => Or.inr ⟨?_,p,?_⟩)
    all_goals rw [hcall] at *
    · rintro ⟨st,hmem,hne⟩
      simp only [hv,hdel,List.mem_cons,List.not_mem_nil,or_false,or_self_left] at hmem
      rcases hmem with rfl | rfl
      · exact absurd rfl hne
      · exact hne
    · exact hrep'
    · refine iff_of_false ?_ hleft
      simp only at h
      simp [h]
    · rw [hports,herase]
      rfl
    · exact (Finset.erase_eq_empty_iff s.registered p).mp herase |>.resolve_left hsome.ne_empty

/-- An unregistration that does not find the broadcast entry is right exactly
when the removal of the policer fails. -/
theorem unregister_unknown {y : UnregisterOutcomes} (hI : Inv s) (hk : ¬ s.vepa.BcastKnown)
    (hv : y.delVlanPolicer = sok) :
    (StepOk s (.unregister p y) ↔ Regular s (.unregister p y)) ∧
      (Regular s (.unregister p y) → Inv (step s (.unregister p y))) := by
  have hdel : VepaTable.delAddr s.vepa.table MacAddr.bcast 0#16 p = (efail,s.vepa.table) :=
    delAddr_unknown hk
  have hcall : call s.vepa (.unregister p y) = _ :=
    unregisterClient_last hv (by rw [hdel]; exact hk)
  rw [hdel] at hcall
  by_cases hb : delMcastPolicer y.delBcastPolicer = sok
  · refine ⟨iff_of_false (fun h => ?_) fun h => h hv hk hb,fun h => absurd hb (h hv hk)⟩
    obtain ⟨-,hfail⟩ := h
    rw [hcall] at hfail
    exact hfail ⟨efail,by simp,efail_ne_sok⟩ hb
  · have hright : StepOk s (.unregister p y) ∧ Inv (step s (.unregister p y)) := by
      refine of_refused hI ?_ ?_ ?_
      all_goals rw [hcall]
      · exact hb
      · rfl
      · simp [hb]
    exact ⟨iff_of_true hright.1 fun _ _ => hb,fun _ => hright.2⟩

/-- A call is right exactly when it meets the condition, which keeps the
invariant. -/
theorem step_iff (hI : Inv s) (e : Event) :
    (StepOk s e ↔ Regular s e) ∧ (Regular s e → Inv (step s e)) := by
  have hright : StepOk s e ∧ Inv (step s e) → Regular s e →
      (StepOk s e ↔ Regular s e) ∧ (Regular s e → Inv (step s e)) :=
    fun h hr => ⟨iff_of_true h.1 hr,fun _ => h.2⟩
  -- Without the broadcast entry the last client may be stuck, with it nobody is.
  have hagreed : s.vepa.BcastKnown → ∃ m, Represents s.vepa.table m ∧ Agreed s m := by
    obtain ⟨m,hrep,hm⟩ := hI
    refine fun hk => ⟨m,hrep,hm.resolve_right fun hstuck => ?_⟩
    have hne := hrep.known_iff_nonempty.mp hk
    rw [hstuck.gone] at hne
    exact absurd hne Finset.not_nonempty_empty
  cases e with
  | register flowIdx p a x =>
    by_cases hgo : x.addVlan = sok ∧ x.setVlanPolicer = sok
    · obtain ⟨hv,hp⟩ := hgo
      by_cases hk : s.vepa.BcastKnown
      · obtain ⟨m,hrep,hm⟩ := hagreed hk
        exact hright (register_known hrep hm hk hv hp) fun _ _ hn => absurd hk hn
      · obtain ⟨m,hrep,-⟩ := hI
        exact register_unknown hrep hk hv hp
    · obtain ⟨hst,hobj,hb⟩ := registerClient_refused (o := s.vepa) (p := p) (a := a) hgo
      refine hright (of_refused hI hst (congrArg VepaObj.remoteCoreVepaTable hobj) hb) ?_
      exact fun hv hp => absurd ⟨hv,hp⟩ hgo
  | unregister p y =>
    by_cases hv : y.delVlanPolicer = sok
    · by_cases hk : s.vepa.BcastKnown
      · obtain ⟨m,hrep,hm⟩ := hagreed hk
        exact hright (unregister_known hrep hm hk hv) fun _ hn => absurd hk hn
      · exact unregister_unknown hI hk hv
    · have hcall : call s.vepa (.unregister p y) = _ := unregisterClient_refused hv
      refine hright (of_refused hI ?_ ?_ ?_) fun h => absurd h hv
      all_goals rw [hcall]
      exact hv

end Runs

/-- From an idle table, the policer tracks the clients and failures are
reported at every call exactly when every call meets the condition. -/
theorem policer_tracks_clients_iff (s : Registry) (h : Idle s) (es : List Event) :
    Guarded step StepOk s es ↔ Guarded step Regular s es :=
  guarded_iff_guarded (fun _ e hI => (step_iff hI e).2) (fun _ e hI => (step_iff hI e).1)
    h.inv

/-- An initialised object whose duplication flow is set, before any client. -/
def startUp (flowIdx : U32) : Registry where
  vepa :=
    { obj := { (VepaTable.init true ⟨flushTable,0#32⟩).2 with
        packetDuplicationFlowIdx := flowIdx }
      clients := ⟨fun p => 2000#16 + p.val.setWidth 16,fun _ => zeroAddr,fun _ => false,
        fun _ => none,false⟩ }
  registered := ∅

theorem idle_startUp (flowIdx : U32) : Idle (startUp flowIdx) :=
  ⟨⟨∅,represents_init _,Finmap.notMem_empty⟩,rfl,rfl⟩

/-- One client registers and unregisters while every ioctl succeeds. -/
theorem policer_tracks_clients_iff_oneClient :
    Guarded step StepOk (startUp 5#32)
      [.register 3#32 switchPort ⟨2#8,0#8,0#8,0#8,0#8,1#8⟩ ⟨sok,sok,sok⟩,
        .unregister switchPort ⟨sok,sok⟩] := by
  refine (policer_tracks_clients_iff _ (idle_startUp _) _).mpr
    ⟨fun _ _ _ => ?_,fun _ h => ?_,trivial⟩
  · refine ⟨rfl,by decide,fun q hq => absurd hq (Finset.notMem_empty q)⟩
  · exact absurd (by decide) h

/-- The first registration does not get its broadcast policer and reports
success. -/
theorem policer_lost_by_first_registration :
    ¬ Guarded step StepOk (startUp 5#32)
      [.register 3#32 switchPort ⟨2#8,0#8,0#8,0#8,0#8,1#8⟩ ⟨sok,sok,efail⟩] := by
  rintro ⟨⟨-,hfail⟩,-⟩
  exact hfail ⟨efail,by decide,efail_ne_sok⟩ (by decide)

end EthernetFirmware.VepaClients
