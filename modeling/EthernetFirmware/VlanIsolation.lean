import EthernetFirmware.VlanMembership
import EthernetFirmware.VlanSlots

/-!
# VLAN isolation

No VLAN in use joins ports that must be kept apart: switch ports and
MAC-only ports, two MAC-only ports, or a virtual MAC port and a hardware
port it does not belong to. The checks of initialisation cover the hardware
masks of static VLANs but not their virtual masks, and a dynamic VLAN of a
virtual MAC port stores the number of the port where its virtual mask
belongs. The VLANs stay isolated exactly while neither does harm.
-/

namespace EthernetFirmware.VlanIsolation

open Function BitMasks RemoteConfig VlanTable VlanJoinLeave VlanMembership VlanSlots GuardedRuns

/-- ALE mask of the ports in switch mode. -/
def aleSwitchPortMask (cfg : Cfg) : U32 := cfg.switchPortMask <<< 1

/-- ALE mask of the ports in MAC-only mode. -/
def aleMacOnlyPortMask (cfg : Cfg) : U32 := cfg.macOnlyPortMask <<< 1

/-- The virtual members of a VLAN suit its hardware members. -/
structure VirtMembersOk (memberMask virtMemberMask : U32) : Prop where
  /-- Virtual switch ports and virtual MAC ports are not both permitted. -/
  kinds : ∀ p q : PortId, isSwitchPort p.val = true → isMacPort q.val = true →
    isSet virtMemberMask p.val.toNat = true → isSet virtMemberMask q.val.toNat = false
  /-- The hardware port of a permitted virtual MAC port is a member. -/
  behind : ∀ p : PortId, isMacPort p.val = true → isSet virtMemberMask p.val.toNat = true →
    Within (macPortToPortMask (getMacPort p.val)) memberMask

/-- Masks of a VLAN that keeps ports apart. -/
structure MasksIsolated (cfg : Cfg)
    (memberMask regMcastFloodMask unregMcastFloodMask untagMask virtMemberMask : U32) :
    Prop where
  /-- Switch ports and MAC-only ports are not both members. -/
  kinds : ∀ i j, isSet (memberMask &&& aleSwitchPortMask cfg) i = true →
    isSet (memberMask &&& aleMacOnlyPortMask cfg) j = false
  /-- At most one MAC-only port is a member. -/
  single : ∀ i j, isSet (memberMask &&& aleMacOnlyPortMask cfg) i = true →
    isSet (memberMask &&& aleMacOnlyPortMask cfg) j = true → i = j
  /-- The virtual members suit the members. -/
  virt : VirtMembersOk memberMask virtMemberMask
  /-- Registered multicast is flooded to members. -/
  regFlood : Within regMcastFloodMask memberMask
  /-- So is unregistered multicast. -/
  unregFlood : Within unregMcastFloodMask memberMask
  /-- Tags are removed at members. -/
  untag : Within untagMask memberMask

/-- The entry keeps ports apart. -/
def EntryIsolated (cfg : Cfg) (e : VlanEntry) : Prop :=
  MasksIsolated cfg e.memberMask e.regMcastFloodMask e.unregMcastFloodMask e.untagMask
    e.virtMemberMask

/-- Every VLAN in use keeps ports apart. -/
def Isolated (cfg : Cfg) (o : VlanObj) : Prop :=
  ∀ i, (o.vlan i).isFree = false → EntryIsolated cfg (o.vlan i)

/-- Mask of the virtual switch ports. -/
def virtSwitchPortMask : U32 := bit 25 ||| bit 26 ||| bit 27 ||| bit 28

/-- How the server sets up the port masks: the switch ports are enabled
ports that are not MAC-only, and the default masks name switch ports. -/
structure PortsSplit (cfg : Cfg) : Prop where
  /-- No port is in both modes. -/
  disjoint : cfg.switchPortMask &&& cfg.macOnlyPortMask = 0#32
  /-- The default port mask holds the host port and switch ports. -/
  defaultPorts : Within cfg.defaultPortMask (hostPortMask ||| aleSwitchPortMask cfg)
  /-- The default virtual port mask holds virtual switch ports. -/
  defaultVirtPorts : Within cfg.defaultVirtPortMask virtSwitchPortMask

/-- The call does not create a VLAN for a virtual MAC port other than the
first, whose number has no virtual port's bit. -/
def KeepsIsolation (o : VlanObj) : Call → Prop
  | .join p v mac _ => isMacPort p.val = true → mac.isMcast = false → getVlan o v = none →
    freeVlan o ≠ none → p = macPort
  | _ => True

variable {o : VlanObj} {i j : Fin vlansMax} {p q : PortId} {v : U16} {mac : MacAddr}
  {st setup remove : Status} {cfg : Cfg} {c : VlanCfg} {x : U32} {k l : ℕ}

/-- Subtracting one keeps the bits above a set bit. -/
theorem isSet_sub_one (hk : isSet x k = true) (hl : isSet x l = true) (h : k < l) :
    isSet (x - 1#32) l = true := by
  have hbit : x.toNat.testBit k = true := by rwa [isSet_eq_getLsbD] at hk
  have hpos : 0 < x.toNat % 2 ^ (k + 1) := by
    have hmod : (x.toNat % 2 ^ (k + 1)).testBit k = true := by
      rw [Nat.testBit_mod_two_pow,hbit]
      simp
    by_contra hz
    have hzero : x.toNat % 2 ^ (k + 1) = 0 := by omega
    rw [hzero] at hmod
    simp at hmod
  have hdiv : (x.toNat - 1) / 2 ^ (k + 1) = x.toNat / 2 ^ (k + 1) := by
    have hsplit := Nat.div_add_mod x.toNat (2 ^ (k + 1))
    have hlt := Nat.mod_lt x.toNat (Nat.two_pow_pos (k + 1))
    rw [Nat.div_eq_iff (Nat.two_pow_pos (k + 1))]
    rw [Nat.mul_comm] at hsplit
    omega
  have hsub : (x - 1#32).toNat = x.toNat - 1 := by
    have hle : x.toNat % 2 ^ (k + 1) ≤ x.toNat := Nat.mod_le ..
    have hx := x.isLt
    rw [BitVec.toNat_sub]
    simp only [BitVec.toNat_ofNat]
    omega
  rw [isSet_eq_getLsbD] at hl ⊢
  obtain ⟨d,rfl⟩ : ∃ d, l = d + (k + 1) := ⟨l - (k + 1),by omega⟩
  change (x - 1#32).toNat.testBit (d + (k + 1)) = true
  change x.toNat.testBit (d + (k + 1)) = true at hl
  rw [hsub,← Nat.testBit_div_two_pow,hdiv,Nat.testBit_div_two_pow]
  exact hl

theorem popcount_eq_zero (h : popcount x = 0) : x = 0#32 := by
  by_contra hx
  rw [popcount,dif_neg hx] at h
  omega

/-- A mask whose count is at most one has at most one member. -/
theorem unique_of_popcount (h : ¬ 1 < popcount x) (hk : isSet x k = true) (hl : isSet x l = true) :
    k = l := by
  have hx : x ≠ 0#32 := ne_zero_of_isSet hk
  rw [popcount,dif_neg hx] at h
  have hzero : x &&& (x - 1#32) = 0#32 := popcount_eq_zero (by omega)
  have hnone : ∀ {a b}, isSet x a = true → isSet x b = true → ¬ a < b := by
    intro a b ha hb hab
    have hboth : isSet (x &&& (x - 1#32)) b = true := by
      rw [isSet_and,hb,isSet_sub_one ha hb hab]
      rfl
    rw [hzero,isSet_zero] at hboth
    contradiction
  rcases Nat.lt_trichotomy k l with h | h | h
  · exact absurd h (hnone hk hl)
  · exact h
  · exact absurd h (hnone hl hk)

/-- The ALE bit of a virtual MAC port's hardware port is its own number. -/
theorem macPortToPortMask_getMacPort (h : isMacPort p.val = true) :
    macPortToPortMask (getMacPort p.val) = bit p.val.toNat := by
  obtain ⟨h1,h8⟩ := toNat_of_isMacPort h
  have hsub : (p.val - 1#32).toNat + 1 = p.val.toNat := by
    rw [BitVec.toNat_sub]
    simp only [BitVec.toNat_ofNat]
    omega
  unfold macPortToPortMask getMacPort macPort1
  rw [hsub]

/-- A port shifted into an ALE mask follows the host port. -/
theorem isSet_aleMask {m : U32} (h : isSet (m <<< 1) k = true) :
    ∃ n, k = n + 1 ∧ isSet m n = true := by
  cases k with
  | zero =>
    rw [isSet_shiftLeft_one_zero] at h
    contradiction
  | succ n =>
    rw [isSet_shiftLeft_one,Bool.and_eq_true] at h
    exact ⟨n,rfl,h.2⟩

/-- No ALE port is in both modes. -/
theorem PortsSplit.apart (h : PortsSplit cfg) (hs : isSet (aleSwitchPortMask cfg) k = true) :
    isSet (aleMacOnlyPortMask cfg) k = false := by
  obtain ⟨n,rfl,hn⟩ := isSet_aleMask hs
  have hboth : isSet (cfg.switchPortMask &&& cfg.macOnlyPortMask) n = false := by
    rw [h.disjoint,isSet_zero]
  rw [isSet_and,hn,Bool.true_and] at hboth
  unfold aleMacOnlyPortMask
  rw [isSet_shiftLeft_one,hboth,Bool.and_false]

/-- The default virtual port mask permits no virtual MAC port. -/
theorem PortsSplit.noVirtMac (h : PortsSplit cfg) (hp : isMacPort p.val = true) :
    isSet cfg.defaultVirtPortMask p.val.toNat = false := by
  obtain ⟨h1,h8⟩ := toNat_of_isMacPort hp
  by_contra hset
  have hin := within_iff.mp h.defaultVirtPorts _ (Bool.eq_true_of_not_eq_false hset)
  simp only [virtSwitchPortMask,isSet_or,isSet_bit,Bool.or_eq_true,decide_eq_true_iff] at hin
  omega

theorem isSet_hostPortMask : isSet hostPortMask k = true ↔ k = 0 := by
  unfold hostPortMask
  rw [isSet_bit,decide_eq_true_iff]
  omega

theorem not_macOnly_zero : isSet (aleMacOnlyPortMask cfg) 0 = false := isSet_shiftLeft_one_zero

/-- Members among the host port and switch ports are no MAC-only ports. -/
theorem PortsSplit.noMacOnly (h : PortsSplit cfg)
    (hm : Within x (hostPortMask ||| aleSwitchPortMask cfg)) :
    isSet (x &&& aleMacOnlyPortMask cfg) k = false := by
  rw [isSet_and]
  cases hk : isSet x k with
  | false => rfl
  | true =>
    have hin := within_iff.mp hm k hk
    rw [isSet_or,Bool.or_eq_true,isSet_hostPortMask] at hin
    rcases hin with rfl | hs
    · exact not_macOnly_zero
    · exact h.apart hs

/-- Without permitted virtual MAC ports the virtual members suit any
members. -/
theorem virtMembersOk_of_none {m : U32}
    (h : ∀ p : PortId, isMacPort p.val = true → isSet m p.val.toNat = false) :
    VirtMembersOk x m := by
  refine ⟨fun p q _ hq _ => h q hq,fun p hp hset => ?_⟩
  rw [h p hp] at hset
  contradiction

/-- A VLAN of host port and switch ports that permits no virtual MAC port
keeps ports apart. -/
theorem PortsSplit.switchVlan (h : PortsSplit cfg) {m : U32}
    (hx : Within x (hostPortMask ||| aleSwitchPortMask cfg))
    (hm : ∀ p : PortId, isMacPort p.val = true → isSet m p.val.toNat = false) :
    MasksIsolated cfg x x x 0#32 m := by
  have hself : Within x x := within_iff.mpr fun _ hi => hi
  refine ⟨fun i j _ => h.noMacOnly hx,fun i j hi => ?_,virtMembersOk_of_none hm,hself,hself,
    within_zero⟩
  rw [h.noMacOnly hx] at hi
  contradiction

/-- What the checks of a static VLAN establish. -/
theorem checkVlanCfg_ok (h : checkVlanCfg cfg c = sok) :
    ¬ (c.memberMask &&& aleSwitchPortMask cfg ≠ 0#32 ∧
        c.memberMask &&& aleMacOnlyPortMask cfg ≠ 0#32) ∧
      ¬ 1 < popcount (c.memberMask &&& aleMacOnlyPortMask cfg) := by
  unfold checkVlanCfg at h
  split_ifs at h with hid hkinds hcount
  · exact absurd h einvalidParams_ne_sok
  · exact absurd h einvalidParams_ne_sok
  · exact absurd h einvalidParams_ne_sok
  · exact ⟨hkinds,hcount⟩

/-- A static VLAN that passed the checks keeps ports apart exactly when its
virtual members suit its members. -/
theorem static_isolated_iff (h : checkVlanCfg cfg c = sok) :
    EntryIsolated cfg (staticEntry c) ↔ VirtMembersOk c.memberMask c.virtMemberMask := by
  have hwithin : ∀ m : U32, Within (m &&& c.memberMask) c.memberMask := by
    intro m
    rw [within_iff]
    intro i hi
    rw [isSet_and,Bool.and_eq_true] at hi
    exact hi.2
  obtain ⟨hkinds,hcount⟩ := checkVlanCfg_ok h
  refine ⟨fun hiso => hiso.virt,fun hvirt => ?_⟩
  refine ⟨fun i j hi => ?_,fun i j hi hj => unique_of_popcount hcount hi hj,hvirt,
    hwithin _,hwithin _,hwithin _⟩
  by_contra hj
  exact hkinds ⟨ne_zero_of_isSet hi,ne_zero_of_isSet (Bool.eq_true_of_not_eq_false hj)⟩

/-- The number of a virtual MAC port, read as a mask, suits its members
exactly for the first port. -/
theorem virtMembersOk_number_iff (hp : isMacPort p.val = true) :
    VirtMembersOk (hostPortMask ||| macPortToPortMask (getMacPort p.val)) p.val ↔ p = macPort := by
  obtain ⟨h1,h8⟩ := toNat_of_isMacPort hp
  constructor
  · intro h
    by_contra hne
    have hgt : p.val.toNat ≠ 1 := PortId.toNat_ne hne
    -- The highest bit of the number names a smaller port.
    have hlow : 1 ≤ p.val.toNat.log2 := (Nat.le_log2 (by omega)).mpr (by omega)
    have hlt : p.val.toNat.log2 < p.val.toNat := (Nat.log2_lt (by omega)).mpr Nat.lt_two_pow_self
    obtain ⟨q,hq,hmac⟩ : ∃ q : PortId, q.val.toNat = p.val.toNat.log2 ∧ isMacPort q.val = true := by
      have hval : (BitVec.ofNat 32 p.val.toNat.log2).toNat = p.val.toNat.log2 := by
        rw [BitVec.toNat_ofNat]
        omega
      have hmac : isMacPort (BitVec.ofNat 32 p.val.toNat.log2) = true := by
        unfold isMacPort macPort1 macPortLast
        rw [Bool.and_eq_true,decide_eq_true_iff,decide_eq_true_iff,BitVec.le_def,BitVec.le_def,hval]
        exact ⟨hlow,by simp; omega⟩
      exact ⟨⟨_,Or.inl hmac⟩,hval,hmac⟩
    have hset : isSet p.val q.val.toNat = true := by
      rw [hq,isSet_eq_getLsbD]
      exact Nat.testBit_log2 (by omega)
    have hin := within_iff.mp (h.behind q hmac hset) q.val.toNat
    rw [macPortToPortMask_getMacPort hmac,macPortToPortMask_getMacPort hp,isSet_or,Bool.or_eq_true,
      isSet_hostPortMask,isSet_bit,isSet_bit,decide_eq_true_iff,decide_eq_true_iff] at hin
    have := hin ⟨rfl,q.toNat_lt⟩
    omega
  · rintro rfl
    refine virtMembersOk_of_none fun q hq => ?_
    obtain ⟨hq1,hq8⟩ := toNat_of_isMacPort hq
    change isSet (bit 0 : U32) q.val.toNat = false
    exact isSet_bit_of_ne (by omega)

/-- A new dynamic VLAN keeps ports apart exactly when it is not created for
a virtual MAC port other than the first. -/
theorem dynamic_isolated_iff {old : VlanEntry} (hcfg : PortsSplit cfg)
    (hdef : o.defaultPortMask = cfg.defaultPortMask)
    (hvirt : o.defaultVirtPortMask = cfg.defaultVirtPortMask) :
    EntryIsolated cfg (dynamicEntry o p v old) ↔ (isMacPort p.val = true → p = macPort) := by
  unfold EntryIsolated dynamicEntry
  by_cases hp : isMacPort p.val = true
  · rw [if_pos hp,imp_iff_right hp,← virtMembersOk_number_iff hp]
    dsimp only
    have hself : ∀ m : U32, Within m m := fun m => within_iff.mpr fun _ hi => hi
    have honly : ∀ k m, isSet ((hostPortMask ||| macPortToPortMask (getMacPort p.val)) &&& m) k =
        true → isSet m 0 = false → k = p.val.toNat ∧ isSet m k = true := by
      intro k m hk hzero
      rw [macPortToPortMask_getMacPort hp,isSet_and,isSet_or,Bool.and_eq_true,Bool.or_eq_true,
        isSet_hostPortMask,isSet_bit,decide_eq_true_iff] at hk
      obtain ⟨rfl | hk,hm⟩ := hk
      · exact absurd (hzero.symm.trans hm) Bool.false_ne_true
      · exact ⟨hk.1.symm,hm⟩
    refine ⟨fun h => h.virt,fun h => ⟨fun i j hi => ?_,fun i j hi hj => ?_,h,hself _,hself _,
      within_zero⟩⟩
    · obtain ⟨rfl,hs⟩ := honly i _ hi isSet_shiftLeft_one_zero
      by_contra hj
      obtain ⟨rfl,hm⟩ := honly j _ (by simpa using hj) not_macOnly_zero
      exact absurd ((hcfg.apart hs).symm.trans hm) Bool.false_ne_true
    · exact (honly i _ hi not_macOnly_zero).1.trans (honly j _ hj not_macOnly_zero).1.symm
  · rw [if_neg hp]
    refine iff_of_true ?_ fun h => absurd h hp
    split
    · rw [hdef,hvirt]
      exact hcfg.switchVlan hcfg.defaultPorts fun q hq => hcfg.noVirtMac hq
    · refine hcfg.switchVlan ?_ fun _ _ => isSet_zero _
      rw [within_iff]
      intro i hi
      rw [isSet_or,hi,Bool.true_or]

section Calls

variable {o' : VlanObj}

/-- Entries that keep their flag and masks keep their isolation. -/
theorem isolated_congr (hf : ∀ j, (o'.vlan j).isFree = (o.vlan j).isFree)
    (hm : ∀ j, EntryIsolated cfg (o'.vlan j) ↔ EntryIsolated cfg (o.vlan j)) :
    Isolated cfg o' ↔ Isolated cfg o := by
  refine forall_congr' fun j => ?_
  rw [hf,hm]

/-- Marking a port active or inactive leaves the masks of members alone. -/
theorem isolated_update {e : VlanEntry} (hvlan : o'.vlan = update o.vlan i e)
    (hf : e.isFree = (o.vlan i).isFree)
    (hm : EntryIsolated cfg e ↔ EntryIsolated cfg (o.vlan i)) :
    Isolated cfg o' ↔ Isolated cfg o := by
  apply isolated_congr
  · intro j
    rw [hvlan]
    by_cases hj : j = i
    · rw [hj,update_self,hf]
    · rw [update_of_ne hj]
  · intro j
    rw [hvlan]
    by_cases hj : j = i
    · rw [hj,update_self,hm]
    · rw [update_of_ne hj]

theorem isolated_joinAt : Isolated cfg (joinAt o i p v st).2 ↔ Isolated cfg o := by
  by_cases h : st = sok
  · subst h
    exact isolated_update joinAt_vlan rfl Iff.rfl
  · rw [joinAt_failed h]

theorem isolated_leaveAt : Isolated cfg (leaveAt o i p v setup remove).2 ↔ Isolated cfg o :=
  isolated_update leaveAt_vlan rfl Iff.rfl

/-- A VLAN created in a free entry keeps the table isolated when it keeps
ports apart itself. -/
theorem isolated_createVlan (ho : Isolated cfg o) :
    Isolated cfg (createVlan o i p v) ↔ EntryIsolated cfg (dynamicEntry o p v (o.vlan i)) := by
  constructor
  · intro h
    have hi := h i
    rw [createVlan_self] at hi
    exact hi dynamicEntry_isFree
  · intro h j hj
    by_cases hji : j = i
    · rw [hji,createVlan_self]
      exact h
    · rw [createVlan_of_ne hji] at hj ⊢
      exact ho j hj

/-- The table is isolated and keeps the default masks. -/
structure IsolationInv (cfg : Cfg) (o : VlanObj) : Prop where
  /-- Every VLAN in use keeps ports apart. -/
  isolated : Isolated cfg o
  /-- The default port mask is that of the configuration. -/
  defaultPorts : o.defaultPortMask = cfg.defaultPortMask
  /-- So is the default virtual port mask. -/
  defaultVirtPorts : o.defaultVirtPortMask = cfg.defaultVirtPortMask

/-- The default masks after a call. -/
theorem serve_defaults (o : VlanObj) (call : Call) :
    (serve o call).defaultPortMask = o.defaultPortMask ∧
      (serve o call).defaultVirtPortMask = o.defaultVirtPortMask := by
  cases call with
  | join p v mac st =>
    change (join o p v mac st).2.defaultPortMask = _ ∧ (join o p v mac st).2.defaultVirtPortMask = _
    have hmove := join_cases o p v mac st
    generalize join o p v mac st = r at hmove ⊢
    cases hmove with
    | mcastAddr hmac => exact ⟨rfl,rfl⟩
    | notAllowed i hmac hget hmember => exact ⟨rfl,rfl⟩
    | noRoom hmac hget hfree => exact ⟨rfl,rfl⟩
    | known i hmac hget hmember =>
      exact ⟨joinAt_settings.defaultPortMask,joinAt_settings.defaultVirtPortMask⟩
    | created i hmac hget hfree =>
      exact ⟨joinAt_settings.defaultPortMask,joinAt_settings.defaultVirtPortMask⟩
  | leave p v mac setup remove =>
    change (leave o p v mac setup remove).2.defaultPortMask = _ ∧
      (leave o p v mac setup remove).2.defaultVirtPortMask = _
    by_cases hl : ∃ i, Leaves o p v mac i
    · obtain ⟨i,hi⟩ := hl
      rw [leave_of_leaves hi]
      exact ⟨leaveAt_settings.defaultPortMask,leaveAt_settings.defaultVirtPortMask⟩
    · rw [(leave_refused (not_exists.mp hl)).2]
      exact ⟨rfl,rfl⟩
  | vepaUse table => exact ⟨rfl,rfl⟩

/-- A call keeps the table isolated exactly when it creates no VLAN for a
virtual MAC port other than the first. -/
theorem isolated_serve_iff (hcfg : PortsSplit cfg) (h : IsolationInv cfg o) (call : Call) :
    Isolated cfg (serve o call) ↔ KeepsIsolation o call := by
  cases call with
  | join p v mac st =>
    change Isolated cfg (join o p v mac st).2 ↔ (_ → _ → _ → _ → _)
    have hmove := join_cases o p v mac st
    generalize join o p v mac st = r at hmove ⊢
    cases hmove with
    | mcastAddr hmac =>
      refine iff_of_true h.isolated fun _ hno => ?_
      rw [hmac] at hno
      contradiction
    | notAllowed i hmac hget hmember =>
      refine iff_of_true h.isolated fun _ _ hnone => ?_
      rw [hget] at hnone
      contradiction
    | noRoom hmac hget hfree => exact iff_of_true h.isolated fun _ _ _ hroom => absurd hfree hroom
    | known i hmac hget hmember =>
      refine iff_of_true (isolated_joinAt.mpr h.isolated) fun _ _ hnone => ?_
      rw [hget] at hnone
      contradiction
    | created i hmac hget hfree =>
      rw [isolated_joinAt,isolated_createVlan h.isolated,
        dynamic_isolated_iff hcfg h.defaultPorts h.defaultVirtPorts]
      exact ⟨fun hiso hp _ _ _ => hiso hp,fun hkeep hp => hkeep hp hmac hget (by rw [hfree]; simp)⟩
  | leave p v mac setup remove =>
    change Isolated cfg (leave o p v mac setup remove).2 ↔ True
    refine iff_of_true ?_ trivial
    by_cases hl : ∃ i, Leaves o p v mac i
    · obtain ⟨i,hi⟩ := hl
      rw [leave_of_leaves hi]
      exact isolated_leaveAt.mpr h.isolated
    · rw [(leave_refused (not_exists.mp hl)).2]
      exact h.isolated
  | vepaUse table => exact iff_of_true h.isolated trivial

end Calls

section Initialisation

variable {mutex : Bool} {ioctl : ℕ → Status}

/-- A loop over static VLANs that succeeds accepts each of them. -/
theorem checked_of_saveVlans {cs : List VlanCfg} :
    ∀ {n : ℕ} {o : VlanObj}, (saveVlans cfg n cs o).1 = sok →
      ∀ d ∈ cs, checkVlanCfg cfg d = sok := by
  induction cs with
  | nil =>
    intro n o _ d hd
    simp at hd
  | cons c cs ih =>
    intro n o h
    unfold saveVlans at h
    split_ifs at h with hc
    · rw [List.forall_mem_cons]
      exact ⟨hc,ih h⟩
    · exact absurd h hc

/-- A successful initialisation has its mutex and an accepted
configuration. -/
theorem acceptedCfg_of_init (h : (init o cfg mutex ioctl).1 = sok) :
    mutex = true ∧ AcceptedCfg cfg := by
  unfold init at h
  dsimp only at h
  split_ifs at h with hm hcfg
  · refine ⟨hm,?_⟩
    unfold getCfg at hcfg
    split_ifs at hcfg with hlen
    · exact absurd hcfg einvalidParams_ne_sok
    · exact ⟨Nat.le_of_not_lt hlen,checked_of_saveVlans hcfg⟩
  · exact absurd h hcfg
  · exact absurd h efail_ne_sok

/-- A successful initialisation leaves an isolated table exactly when the
virtual members of every static VLAN suit its members. -/
theorem isolated_init_iff (h : (init o cfg mutex ioctl).1 = sok) :
    Isolated cfg (init o cfg mutex ioctl).2 ↔
      ∀ c ∈ cfg.vlanCfg, VirtMembersOk c.memberMask c.virtMemberMask := by
  obtain ⟨rfl,hacc⟩ := acceptedCfg_of_init h
  have hlen := accepted_length_le cfg
  constructor
  · intro hiso c hc
    rw [← accepted_eq hacc] at hc
    obtain ⟨k,hk,hget⟩ := List.getElem_of_mem hc
    have hentry := hiso ⟨k,by omega⟩ ((init_entry _).mpr hk)
    rw [init_static hk] at hentry
    change EntryIsolated cfg (staticEntry (accepted cfg)[k]) at hentry
    rw [hget] at hentry
    rw [accepted_eq hacc] at hc
    exact (static_isolated_iff (hacc.2 c hc)).mp hentry
  · intro hall i hi
    have hk := (init_entry i).mp hi
    have hsaved : ∀ d ∈ accepted cfg, d ∈ cfg.vlanCfg := by
      rw [accepted_eq hacc]
      exact fun _ hd => hd
    have hmem := hsaved _ (List.getElem_mem hk)
    rw [init_static hk]
    exact (static_isolated_iff (hacc.2 _ hmem)).mpr (hall _ hmem)

theorem init_defaults (h : (init o cfg mutex ioctl).1 = sok) :
    (init o cfg mutex ioctl).2.defaultPortMask = cfg.defaultPortMask ∧
      (init o cfg mutex ioctl).2.defaultVirtPortMask = cfg.defaultVirtPortMask := by
  obtain ⟨rfl,-⟩ := acceptedCfg_of_init h
  obtain ⟨vlan,ale,hstate,-⟩ := init_spec o cfg ioctl
  rw [hstate]
  exact ⟨rfl,rfl⟩

/-- After every successful initialisation, whatever the table held before,
the VLANs in use keep ports apart along every run of joins and leaves
exactly when the virtual members of every static VLAN suit its members and
no VLAN is created for a virtual MAC port other than the first. -/
theorem isolation_iff (o : VlanObj) (cfg : Cfg) (mutex : Bool) (ioctl : ℕ → Status)
    (calls : List Call) (hinit : (init o cfg mutex ioctl).1 = sok) (hcfg : PortsSplit cfg) :
    Along serve (Isolated cfg) (init o cfg mutex ioctl).2 calls ↔
      (∀ c ∈ cfg.vlanCfg, VirtMembersOk c.memberMask c.virtMemberMask) ∧
        Guarded serve KeepsIsolation (init o cfg mutex ioctl).2 calls := by
  have hdef := init_defaults hinit
  have hruns : Isolated cfg (init o cfg mutex ioctl).2 →
      (Along serve (Isolated cfg) (init o cfg mutex ioctl).2 calls ↔
        Guarded serve KeepsIsolation (init o cfg mutex ioctl).2 calls) := by
    intro hstart
    apply along_iff_guarded (I := IsolationInv cfg)
    · exact fun o h => h.isolated
    · intro o call h hG
      have hkeep := serve_defaults o call
      exact ⟨(isolated_serve_iff hcfg h call).mpr hG,hkeep.1.trans h.defaultPorts,
        hkeep.2.trans h.defaultVirtPorts⟩
    · exact fun o call h => isolated_serve_iff hcfg h call
    · exact ⟨hstart,hdef.1,hdef.2⟩
  rw [← isolated_init_iff hinit]
  exact ⟨fun h => ⟨along_start h,(hruns (along_start h)).mp h⟩,fun h => (hruns h.1).mpr h.2⟩

end Initialisation

/-- The first MAC-only port and a switch port create their VLANs beside a
static one, which another switch port joins. -/
theorem isolated_after_three_joins :
    Along serve (Isolated staticCfg) (init (zeroed hostAle none) staticCfg true fun _ => sok).2
      [.join macPort 200#16 clientAddr sok,.join switchPort 300#16 clientAddr sok,
        .join ⟨switchPortLast,Or.inr (by decide)⟩ 100#16 clientAddr sok] := by
  have hstatus : (init (zeroed hostAle none) staticCfg true fun _ => sok).1 = sok := by
    rw [init_staticCfg]
  have hsplit : PortsSplit staticCfg := ⟨by decide,by decide,by decide⟩
  refine (isolation_iff (zeroed hostAle none) staticCfg true (fun _ => sok) _ hstatus
    hsplit).mpr ⟨?_,?_,?_,?_,trivial⟩
  · intro c hc
    rw [List.mem_singleton.mp hc]
    exact virtMembersOk_of_none fun p hp => hsplit.noVirtMac hp
  · exact fun _ _ _ _ => rfl
  · exact fun hmac => absurd hmac (by decide)
  · exact fun hmac => absurd hmac (by decide)

/-- The second MAC-only port creates a VLAN whose virtual mask permits the
first one instead. -/
theorem not_isolated_after_join_of_port_two :
    ¬ Along serve (Isolated (plainCfg true)) (plainStart true)
      [.join ⟨2#32,Or.inl (by decide)⟩ 100#16 clientAddr sok] := by
  intro h
  have hbehind := (along_final h ⟨0,by decide⟩ (by decide)).virt.behind macPort (by decide)
    (by decide)
  revert hbehind
  decide

end EthernetFirmware.VlanIsolation
