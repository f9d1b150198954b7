import EthernetFirmware.GuardedRuns
import EthernetFirmware.VlanTable

/-!
# Undoing a VLAN join

After one initialisation the entries in use are the first `numVlans` ones,
so a VLAN created by a join is found again. A join can then be undone
exactly when the port is among the virtual members of the entry it joined:
always for a VLAN already in the table, and for a VLAN the join creates
only when dynamic VLANs forward and the default mask names the port.
-/

namespace EthernetFirmware.VlanJoinLeave

open Function BitMasks RemoteConfig VlanTable GuardedRuns

variable {o : VlanObj} {i j : Fin vlansMax} {p q : PortId} {v w : U16} {mac : MacAddr}
  {st setup remove : Status}

/-- The entries in use are the first `numVlans` ones. -/
structure Packed (o : VlanObj) : Prop where
  /-- The count fits the table. -/
  bound : o.numVlans ≤ vlansMax
  /-- An entry is in use exactly when its index is counted. -/
  inUse : ∀ i, (o.vlan i).isFree = false ↔ i.val < o.numVlans

/-- The first free entry is the one after those in use. -/
theorem Packed.free_eq (h : Packed o) (hfree : freeVlan o = some i) : i.val = o.numVlans := by
  obtain ⟨hi,hbefore⟩ := freeVlan_eq_some_iff.mp hfree
  have hge : o.numVlans ≤ i.val := by
    by_contra hlt
    have huse := (h.inUse i).mpr (by omega)
    rw [hi] at huse
    exact absurd huse (by decide)
  have hle : i.val ≤ o.numVlans := by
    by_contra hlt
    let k : Fin vlansMax := ⟨o.numVlans,by omega⟩
    have hk : k < i := Fin.mk_lt_of_lt_val (by omega)
    have hcount : k.val < o.numVlans := (h.inUse k).mp (hbefore k hk)
    exact absurd hcount (Nat.lt_irrefl _)
  omega

/-- Rewriting entries without touching their flags keeps the table packed. -/
theorem Packed.of_same {o' : VlanObj} (h : Packed o) (hn : o'.numVlans = o.numVlans)
    (hf : ∀ i, (o'.vlan i).isFree = (o.vlan i).isFree) : Packed o' := by
  refine ⟨hn ▸ h.bound,fun i => ?_⟩
  rw [hf,hn]
  exact h.inUse i

theorem packed_startUp (ale : U16 → Option AleVlan) (vepa : Option VepaTable.Table) (cfg : Cfg)
    (ioctl : ℕ → Status) : Packed (startUp ale vepa cfg ioctl) := by
  obtain ⟨vlan,ale',hstate,htable⟩ := init_spec (zeroed ale vepa) cfg ioctl
  have hlen := accepted_length_le cfg
  unfold startUp
  rw [hstate]
  refine ⟨by simpa [zeroed] using hlen,fun i => ?_⟩
  change (vlan i).isFree = false ↔ i.val < 0 + (accepted cfg).length
  rw [htable i,Nat.zero_add]
  by_cases hi : i.val < (accepted cfg).length
  · simp [hi,staticEntry]
  · simp [hi]

theorem isFree_joinAt : ((joinAt o i p v st).2.vlan j).isFree = (o.vlan j).isFree := by
  by_cases h : st = sok
  · subst h
    rw [joinAt_vlan]
    exact modify_field (o := o) VlanEntry.isFree (VlanEntry.activate p) rfl j
  · rw [joinAt_failed h]

/-- A join keeps the table packed. -/
theorem packed_join (h : Packed o) : Packed (join o p v mac st).2 := by
  have hmove := join_cases o p v mac st
  generalize join o p v mac st = r at hmove ⊢
  cases hmove with
  | mcastAddr hmac => exact h
  | notAllowed i hmac hget hmember => exact h
  | noRoom hmac hget hfree => exact h
  | known i hmac hget hmember => exact h.of_same joinAt_settings.numVlans fun j => isFree_joinAt
  | created i hmac hget hfree =>
    have hi := h.free_eq hfree
    have hcreate : Packed (createVlan o i p v) := by
      refine ⟨?_,fun j => ?_⟩
      · change o.numVlans + 1 ≤ vlansMax
        have := i.isLt
        omega
      · change _ ↔ j.val < o.numVlans + 1
        by_cases hj : j = i
        · subst hj
          rw [createVlan_self,dynamicEntry_isFree]
          simp [hi]
        · have hne : j.val ≠ i.val := fun heq => hj (Fin.ext heq)
          rw [createVlan_of_ne hj,h.inUse j]
          omega
    exact hcreate.of_same joinAt_settings.numVlans fun j => isFree_joinAt

theorem packed_leave (h : Packed o) : Packed (leave o p v mac setup remove).2 := by
  by_cases hl : ∃ i, Leaves o p v mac i
  · obtain ⟨i,hi⟩ := hl
    rw [leave_of_leaves hi]
    refine h.of_same leaveAt_settings.numVlans fun j => ?_
    rw [leaveAt_vlan]
    exact modify_field (o := o) VlanEntry.isFree (VlanEntry.retire p) rfl j
  · rw [(leave_refused (not_exists.mp hl)).2]
    exact h

theorem packed_serve {c : Call} (h : Packed o) : Packed (serve o c) := by
  cases c with
  | join p v mac st => exact packed_join h
  | leave p v mac setup remove => exact packed_leave h
  | vepaUse t => exact ⟨h.bound,h.inUse⟩

/-- What a join that succeeds promises, in the state it leaves and after the
leave that follows: `before` is the membership of the other ports. -/
structure Undoable (before : PortId → Bool) (joined : VlanObj) (p : PortId) (v : U16)
    (mac : MacAddr) : Prop where
  /-- The port is in the VLAN. -/
  joins : isInVlan joined p v = true
  /-- The port can leave. -/
  leaves : (leave joined p v mac sok sok).1 = sok
  /-- It is then out of the VLAN. -/
  isOut : isInVlan (leave joined p v mac sok sok).2 p v = false
  /-- The join changes no other port's membership. -/
  othersJoin : ∀ q, q ≠ p → isInVlan joined q v = before q
  /-- Nor does the leave. -/
  othersLeave : ∀ q, q ≠ p → isInVlan (leave joined p v mac sok sok).2 q v = before q
  /-- The port can join again. -/
  rejoins : (join (leave joined p v mac sok sok).2 p v mac sok).1 = sok

/-- With the ioctls succeeding, a join that succeeds can be undone. -/
def Undone (o : VlanObj) (p : PortId) (v : U16) (mac : MacAddr) : Prop :=
  (join o p v mac sok).1 = sok →
    Undoable (fun q => isInVlan o q v) (join o p v mac sok).2 p v mac

/-- The checks of a join refuse the port. -/
def Refused (o : VlanObj) (p : PortId) (v : U16) (mac : MacAddr) : Prop :=
  mac.isMcast = true ∨
    (∃ i, getVlan o v = some i ∧ isSet (o.vlan i).virtMemberMask p.val.toNat = false) ∨
    (getVlan o v = none ∧ freeVlan o = none)

/-- In VEPA builds, the broadcast entry of the VLAN is in the VEPA table or
finds room there. -/
def BcastRoom (o : VlanObj) (v : U16) : Prop :=
  ∀ t, o.vepa = some t → VepaTable.Known t MacAddr.bcast v ∨ VepaTable.HasRoom t

/-- The VLAN joined is in the table, or created with the port among its
virtual members. -/
def JoinsMember (o : VlanObj) (p : PortId) (v : U16) : Prop :=
  getVlan o v ≠ none ∨ JoinsForwarding o p

theorem getVlan_joinAt : getVlan (joinAt o i p v st).2 w = getVlan o w := by
  refine getVlan_congr joinAt_settings.numVlans fun j => ?_
  by_cases h : st = sok
  · subst h
    rw [joinAt_vlan]
    exact modify_field (o := o) VlanEntry.vlanId (VlanEntry.activate p) rfl j
  · rw [joinAt_failed h]

theorem getVlan_leaveAt : getVlan (leaveAt o i p v setup remove).2 w = getVlan o w := by
  refine getVlan_congr leaveAt_settings.numVlans fun j => ?_
  rw [leaveAt_vlan]
  exact modify_field (o := o) VlanEntry.vlanId (VlanEntry.retire p) rfl j

theorem isInVlan_of_getVlan (h : getVlan o v = some i) :
    isInVlan o p v = isSet (o.vlan i).virtActiveMask p.val.toNat := by
  unfold isInVlan
  rw [h]

/-- A VLAN that a join creates is the one the look-up finds. -/
theorem Packed.getVlan_created (h : Packed o) (hget : getVlan o v = none)
    (hfree : freeVlan o = some i) : getVlan (createVlan o i p v) v = some i := by
  have hi := h.free_eq hfree
  apply getVlan_of_unique
  · change i.val < o.numVlans + 1
    omega
  · rw [createVlan_self,dynamicEntry_vlanId]
  · intro j hj hv
    by_contra hne
    have hne' : j.val ≠ i.val := fun heq => hne (Fin.ext heq)
    change j.val < o.numVlans + 1 at hj
    rw [createVlan_of_ne hne] at hv
    exact getVlan_eq_none_iff.mp hget j (by omega) hv

/-- The entry a join worked on, as the leave finds it. -/
theorem joined_entry : (joinAt o i p v sok).2.vlan i = (o.vlan i).activate p := by
  rw [joinAt_vlan,update_self]

theorem bcastKnown_joinAt : BcastKnown (joinAt o i p v sok).2 v ↔ BcastRoom o v := by
  unfold BcastKnown BcastRoom
  rw [joinAt_vepa]
  cases o.vepa with
  | none => simp
  | some t => simp [VepaTable.known_addAddr_iff]

/-- A port that a join marks active is a member of the entry it joined. -/
theorem leaves_joined_iff (hget : getVlan o v = some i) (hmac : mac.isMcast = false) :
    Leaves (joinAt o i p v sok).2 p v mac i ↔
      isSet (o.vlan i).virtMemberMask p.val.toNat = true := by
  constructor
  · intro h
    have hm := h.allowed
    rw [joined_entry] at hm
    exact hm
  · intro h
    refine ⟨hmac,by rw [getVlan_joinAt,hget],?_,?_⟩
    · rw [joined_entry]
      exact h
    · rw [joined_entry]
      exact isSet_setBit_self p.toNat_lt

/-- A join of a VLAN found at an entry can be undone exactly when the port
is allowed in the entry and the broadcast entry is there to be removed. -/
theorem undoable_iff (hget : getVlan o v = some i) (hmac : mac.isMcast = false) :
    Undoable (fun q => isInVlan o q v) (joinAt o i p v sok).2 p v mac ↔
      isSet (o.vlan i).virtMemberMask p.val.toNat = true ∧ BcastRoom o v := by
  have hjoined : getVlan (joinAt o i p v sok).2 v = some i := by rw [getVlan_joinAt,hget]
  constructor
  · intro h
    have hl : ∃ j, Leaves (joinAt o i p v sok).2 p v mac j := by
      by_contra hno
      exact (leave_refused (not_exists.mp hno)).1 h.leaves
    obtain ⟨j,hj⟩ := hl
    obtain rfl : i = j := Option.some.inj (hjoined.symm.trans hj.found)
    have hok := h.leaves
    rw [leave_of_leaves hj,leaveAt_ok_iff] at hok
    exact ⟨(leaves_joined_iff hget hmac).mp hj,bcastKnown_joinAt.mp hok⟩
  · rintro ⟨hmember,hroom⟩
    have hl := (leaves_joined_iff hget hmac).mpr hmember
    have hleft : leave (joinAt o i p v sok).2 p v mac sok sok =
        leaveAt (joinAt o i p v sok).2 i p v sok sok := leave_of_leaves hl
    have hfound : getVlan (leaveAt (joinAt o i p v sok).2 i p v sok sok).2 v = some i := by
      rw [getVlan_leaveAt,hjoined]
    have hentry : (leaveAt (joinAt o i p v sok).2 i p v sok sok).2.vlan i =
        ((o.vlan i).activate p).retire p := by
      rw [leaveAt_vlan,update_self,joined_entry]
    refine ⟨?_,?_,?_,?_,?_,?_⟩
    · rw [isInVlan_of_getVlan hjoined,joined_entry]
      exact isSet_setBit_self p.toNat_lt
    · rw [hleft,leaveAt_ok_iff]
      exact bcastKnown_joinAt.mpr hroom
    · rw [hleft,isInVlan_of_getVlan hfound,hentry]
      exact isSet_clearBit_self _ _
    · intro q hq
      rw [isInVlan_of_getVlan hjoined,isInVlan_of_getVlan hget,joined_entry]
      exact isSet_setBit_of_ne (PortId.toNat_ne hq.symm)
    · intro q hq
      have hne := PortId.toNat_ne hq.symm
      rw [hleft,isInVlan_of_getVlan hfound,isInVlan_of_getVlan hget,hentry]
      exact (isSet_clearBit_of_ne hne).trans (isSet_setBit_of_ne hne)
    · rw [hleft]
      have hagain := join_cases (leaveAt (joinAt o i p v sok).2 i p v sok sok).2 p v mac sok
      generalize join (leaveAt (joinAt o i p v sok).2 i p v sok sok).2 p v mac sok = r at hagain ⊢
      cases hagain with
      | mcastAddr h => exact absurd h (by simp [hmac])
      | notAllowed j _ hj h =>
        obtain rfl : i = j := Option.some.inj (hfound.symm.trans hj)
        rw [hentry] at h
        exact absurd (hmember.symm.trans h) (by decide)
      | noRoom _ hj _ => exact absurd (hfound.symm.trans hj) (by simp)
      | known j _ _ _ => exact joinAt_status
      | created j _ hj _ => exact absurd (hfound.symm.trans hj) (by simp)

/-- In a packed table, a join can be undone exactly when it is refused, or
joins a VLAN as a member with room for its broadcast entry. -/
theorem undone_iff (h : Packed o) :
    Undone o p v mac ↔ Refused o p v mac ∨ (JoinsMember o p v ∧ BcastRoom o v) := by
  have hmove := join_cases o p v mac sok
  unfold Undone Refused JoinsMember
  generalize join o p v mac sok = r at hmove ⊢
  cases hmove with
  | mcastAddr hmac => simp [hmac]
  | notAllowed i hmac hget hmember => simp [hget,hmember]
  | noRoom hmac hget hfree => simp [hget,hfree]
  | known i hmac hget hmember =>
    rw [joinAt_status,undoable_iff hget hmac]
    simp [hmac,hget,hmember]
  | created i hmac hget hfree =>
    have hfound := h.getVlan_created (p := p) hget hfree
    have hbefore : (fun q => isInVlan o q v) = fun q => isInVlan (createVlan o i p v) q v := by
      funext q
      rw [isInVlan_of_getVlan hfound,createVlan_self,dynamicEntry_virtActiveMask,isSet_zero]
      unfold isInVlan
      rw [hget]
    rw [joinAt_status,hbefore,undoable_iff hfound hmac,createVlan_self,
      dynamicEntry_allowed_iff]
    simp only [hmac,hget,hfree,true_imp_iff]
    simp only [reduceCtorEq,false_and,exists_false,and_false,or_false,ne_eq,not_true_eq_false,
      false_or,Bool.false_eq_true]
    exact Iff.rfl

/-- In every state reached after initialisation, with any joins and leaves
before and whatever their ioctls returned, a join that succeeds can be
undone exactly when it finds the VLAN in the table or creates it with the
port as a member, with room for the broadcast entry in VEPA builds. -/
theorem join_undone_iff (ale : U16 → Option AleVlan) (vepa : Option VepaTable.Table) (cfg : Cfg)
    (ioctl : ℕ → Status) (calls : List Call) (p : PortId) (v : U16) (mac : MacAddr) :
    Undone (run serve (startUp ale vepa cfg ioctl) calls) p v mac ↔
      Refused (run serve (startUp ale vepa cfg ioctl) calls) p v mac ∨
      (JoinsMember (run serve (startUp ale vepa cfg ioctl) calls) p v ∧
        BcastRoom (run serve (startUp ale vepa cfg ioctl) calls) v) :=
  undone_iff (run_invariant (fun _ _ h => packed_serve h) (packed_startUp ale vepa cfg ioctl)
    calls)

/-- A configuration without static VLANs. -/
def plainCfg (dVlanSwtFwdEn : Bool) : Cfg where
  vlanCfg := []
  dfltVlanIdSwitchPorts := 3#32
  dfltVlanIdMacOnlyPorts := 0#32
  switchPortMask := 0b1110#32
  macOnlyPortMask := 0b0001#32
  defaultPortMask := 0b11101#32
  defaultVirtPortMask := 0x1E000000#32
  dVlanSwtFwdEn := dVlanSwtFwdEn

/-- The table started from the plain configuration without VEPA support. -/
def plainStart (dVlanSwtFwdEn : Bool) : VlanObj :=
  startUp (fun _ => none) none (plainCfg dVlanSwtFwdEn) fun _ => sok

/-- A static VLAN of the host port and the switch ports. -/
def switchVlan : VlanCfg := ⟨100#16,0b11101#32,0x1E000000#32,0b11101#32,0b11101#32,0#32⟩

/-- The plain configuration with a static VLAN. -/
def staticCfg : Cfg := { plainCfg true with vlanCfg := [switchVlan] }

/-- An ALE whose VLANs have the host port. -/
def hostAle (_ : U16) : Option AleVlan :=
  some ⟨hostPortMask,0#32,0#32,0#32,0#32,true,false,false⟩

theorem vlansMax_pos : 0 < vlansMax := Nat.succ_pos 31

/-- The state after initialisation with the static VLAN. -/
def staticStart : VlanObj :=
  { plainStart true with
    vlan := update (plainStart true).vlan ⟨0,vlansMax_pos⟩ (staticEntry switchVlan)
    numVlans := 1
    ale := update hostAle 100#16
      (some ⟨0b11100#32,0b11100#32,0b11100#32,0#32,0#32,true,false,false⟩) }

/-- The checks pass, as the static VLAN has no MAC-only port. -/
theorem checkVlanCfg_switchVlan : checkVlanCfg staticCfg switchVlan = sok := by
  have hnone : switchVlan.memberMask &&& staticCfg.macOnlyPortMask <<< 1 = 0#32 := by decide
  unfold checkVlanCfg
  rw [if_neg (by decide),if_neg (by decide),hnone,popcount,dif_pos rfl]
  rfl

theorem init_staticCfg :
    init (zeroed hostAle none) staticCfg true (fun _ => sok) = (sok,staticStart) := by
  have hlen : ¬ vlansMax < staticCfg.vlanCfg.length := by decide
  have hget : ∀ o, getCfg staticCfg o = (sok,saveVlan o 0 switchVlan) := by
    intro o
    unfold getCfg
    rw [if_neg hlen]
    change saveVlans staticCfg 0 [switchVlan] o = _
    rw [saveVlans,if_pos checkVlanCfg_switchVlan]
    rfl
  unfold init
  rw [if_pos rfl,hget]
  rfl

/-- A unicast address. -/
def clientAddr : MacAddr := ⟨0x02#8,0#8,0#8,0#8,0#8,0x01#8⟩

/-- A MAC-only port that creates a VLAN cannot leave it, nor can a switch
port when dynamic VLANs do not forward. -/
theorem join_not_undone_after_create :
    ¬ Undone (plainStart true) macPort 100#16 clientAddr ∧
      ¬ Undone (plainStart false) switchPort 100#16 clientAddr := by
  constructor
  · intro h
    have hleaves := (h (by decide)).leaves
    revert hleaves
    decide
  · intro h
    have hleaves := (h (by decide)).leaves
    revert hleaves
    decide

end EthernetFirmware.VlanJoinLeave
