import EthernetFirmware.VlanJoinLeave

/-!
# VLAN membership

Two laws of every entry in use: the ports active in a VLAN are among its
virtual members, and the host port belongs to the VLAN's ALE entry exactly
while some port is active. The module states for each call when it keeps
the laws and for initialisation when it establishes them; the laws hold
along a run exactly when all of its steps do.
-/

namespace EthernetFirmware.VlanMembership

open Function BitMasks RemoteConfig VlanTable VlanJoinLeave GuardedRuns

variable {o : VlanObj} {i j : Fin vlansMax} {p : PortId} {v w : U16} {mac : MacAddr}
  {st setup remove : Status} {cfg : Cfg}

/-- The two laws of one entry. -/
structure EntryOk (o : VlanObj) (i : Fin vlansMax) : Prop where
  /-- The active ports are virtual members. -/
  within : Within (o.vlan i).virtActiveMask (o.vlan i).virtMemberMask
  /-- The host port is in the ALE entry exactly while a port is active. -/
  host : HostMember o.ale (o.vlan i).vlanId ↔ (o.vlan i).virtActiveMask ≠ 0#32

/-- Every entry in use satisfies the laws. -/
def MembershipOk (o : VlanObj) : Prop := ∀ i, (o.vlan i).isFree = false → EntryOk o i

/-- Of two entries in use for one VLAN, only the later can be active. -/
def Shadowed (o : VlanObj) : Prop :=
  ∀ i j, (o.vlan i).isFree = false → (o.vlan j).isFree = false → i < j →
    (o.vlan i).vlanId = (o.vlan j).vlanId → (o.vlan i).virtActiveMask = 0#32

/-- The member mask of every entry in use names the host port. -/
def MemberHost (o : VlanObj) : Prop :=
  ∀ i, (o.vlan i).isFree = false → isSet (o.vlan i).memberMask 0 = true

/-- What the runs keep besides the laws. -/
structure MembershipInv (o : VlanObj) : Prop where
  /-- The entries in use are the first ones. -/
  packed : Packed o
  /-- The default port mask names the host port. -/
  defaultHost : isSet o.defaultPortMask 0 = true
  /-- So does the member mask of every entry in use. -/
  memberHost : MemberHost o
  /-- A VLAN is active at its last entry only. -/
  shadowed : Shadowed o
  /-- The laws hold. -/
  ok : MembershipOk o

/-- When a call keeps the laws. -/
def KeepsMembership (o : VlanObj) : Call → Prop
  | .join p v mac st => mac.isMcast = false →
    -- A known VLAN whose set-up succeeds is in the table once.
    (∀ i, getVlan o v = some i → isSet (o.vlan i).virtMemberMask p.val.toNat = true →
      st = sok → ∀ j, (o.vlan j).isFree = false → (o.vlan j).vlanId = v → j = i) ∧
    -- A created VLAN names the port, or its set-up fails with no host port there before.
    (getVlan o v = none → freeVlan o ≠ none →
      if st = sok then JoinsForwarding o p else ¬ HostMember o.ale v)
  | .leave p v mac setup remove => ∀ i, Leaves o p v mac i →
    ((o.vlan i).retire p).virtActiveMask = 0#32 →
      setup = sok ∨ ((o.vlan i).isStatic = false ∧ remove = sok)
  | .vepaUse _ => True

/-- A configuration that passes the checks of initialisation. -/
def AcceptedCfg (cfg : Cfg) : Prop :=
  cfg.vlanCfg.length ≤ vlansMax ∧ ∀ c ∈ cfg.vlanCfg, checkVlanCfg cfg c = sok

/-- A static VLAN whose ALE entry had the host port before is set up
successfully at least once. -/
def SetsUpStatic (ale : U16 → Option AleVlan) (cfg : Cfg) (ioctl : ℕ → Status) : Prop :=
  ∀ (i : ℕ) (c : VlanCfg), cfg.vlanCfg[i]? = some c → HostMember ale c.vlanId →
    ∃ (j : ℕ) (d : VlanCfg), cfg.vlanCfg[j]? = some d ∧ d.vlanId = c.vlanId ∧ ioctl j = sok

/-- Who has the host port after a set-up that includes it. -/
theorem hostMember_joinAt : HostMember (joinAt o i p v sok).2.ale w ↔
    if w = (o.vlan i).vlanId then isSet (o.vlan i).memberMask 0 = true
    else HostMember o.ale w := by
  rw [joinAt_ale]
  exact hostMember_setupVlan

/-- A join at an entry keeps the laws exactly when the port is a member of
it and every other entry of the VLAN is active too. -/
theorem membershipOk_joinAt_iff (hu : (o.vlan i).isFree = false)
    (hhost : isSet (o.vlan i).memberMask 0 = true)
    (hwithin : Within (o.vlan i).virtActiveMask (o.vlan i).virtMemberMask)
    (hothers : ∀ j, j ≠ i → (o.vlan j).isFree = false → EntryOk o j) :
    MembershipOk (joinAt o i p v sok).2 ↔
      isSet (o.vlan i).virtMemberMask p.val.toNat = true ∧
      ∀ j, j ≠ i → (o.vlan j).isFree = false → (o.vlan j).vlanId = (o.vlan i).vlanId →
        (o.vlan j).virtActiveMask ≠ 0#32 := by
  have hself : (joinAt o i p v sok).2.vlan i = (o.vlan i).activate p := joined_entry
  have hrest : ∀ j, j ≠ i → (joinAt o i p v sok).2.vlan j = o.vlan j := by
    intro j hj
    rw [joinAt_vlan,update_of_ne hj]
  constructor
  · intro h
    constructor
    · have hw := (h i (by rw [hself]; exact hu)).within
      rw [hself,within_iff] at hw
      exact hw _ (isSet_setBit_self p.toNat_lt)
    · intro j hj hju hid
      have hiff := (h j (by rw [hrest j hj]; exact hju)).host
      rw [hrest j hj,hostMember_joinAt,if_pos hid] at hiff
      exact hiff.mp hhost
  · rintro ⟨hmember,hactive⟩ j hju
    by_cases hj : j = i
    · subst hj
      refine ⟨?_,?_⟩
      · rw [hself]
        exact within_setBit hwithin hmember
      · rw [hself,hostMember_joinAt]
        refine iff_of_true ?_ (setBit_ne_zero p.toNat_lt)
        rw [if_pos (show ((o.vlan j).activate p).vlanId = (o.vlan j).vlanId from rfl)]
        exact hhost
    · rw [hrest j hj] at hju
      have hold := hothers j hj hju
      refine ⟨?_,?_⟩
      · rw [hrest j hj]
        exact hold.within
      · rw [hrest j hj,hostMember_joinAt]
        by_cases hid : (o.vlan j).vlanId = (o.vlan i).vlanId
        · rw [if_pos hid]
          exact iff_of_true hhost (hactive j hj hju hid)
        · rw [if_neg hid]
          exact hold.host

/-- The entry a look-up finds comes after every other entry in use for the
VLAN. -/
theorem lt_of_getVlan (h : Packed o) (hget : getVlan o v = some i) (hne : j ≠ i)
    (hju : (o.vlan j).isFree = false) (hid : (o.vlan j).vlanId = v) : j < i := by
  obtain ⟨-,hlast⟩ := getVlan_eq_some_iff.mp hget
  rcases lt_trichotomy j i with hlt | heq | hgt
  · exact hlt
  · exact absurd heq hne
  · exact absurd ⟨(h.inUse j).mp hju,hid⟩ (hlast j hgt)

theorem getVlan_id (hget : getVlan o v = some i) : (o.vlan i).vlanId = v :=
  (getVlan_eq_some_iff.mp hget).1.2

theorem getVlan_inUse (h : Packed o) (hget : getVlan o v = some i) :
    (o.vlan i).isFree = false := (h.inUse i).mpr (getVlan_eq_some_iff.mp hget).1.1

/-- A join of a VLAN in the table. -/
theorem known_membershipOk_iff (h : MembershipInv o) (hget : getVlan o v = some i)
    (hmember : isSet (o.vlan i).virtMemberMask p.val.toNat = true) :
    MembershipOk (joinAt o i p v sok).2 ↔
      ∀ j, (o.vlan j).isFree = false → (o.vlan j).vlanId = v → j = i := by
  have hu := getVlan_inUse h.packed hget
  have hid := getVlan_id hget
  rw [membershipOk_joinAt_iff hu (h.memberHost i hu) (h.ok i hu).within
    (fun j _ hju => h.ok j hju)]
  constructor
  · rintro ⟨-,hactive⟩ j hju hj
    by_contra hne
    have hlt := lt_of_getVlan h.packed hget hne hju hj
    exact hactive j hne hju (hj.trans hid.symm)
      (h.shadowed j i hju hu hlt (hj.trans hid.symm))
  · intro hu'
    exact ⟨hmember,fun j hne hju hj => absurd (hu' j hju (hj.trans hid)) hne⟩

/-- No entry in use other than the created one has its VLAN. -/
theorem created_alone (h : Packed o) (hget : getVlan o v = none) (hne : j ≠ i)
    (hju : ((createVlan o i p v).vlan j).isFree = false) :
    ((createVlan o i p v).vlan j).vlanId ≠ v := by
  rw [createVlan_of_ne hne] at hju ⊢
  exact getVlan_eq_none_iff.mp hget j ((h.inUse j).mp hju)

/-- A join that creates a VLAN. -/
theorem created_membershipOk_iff (h : MembershipInv o) (hget : getVlan o v = none) :
    MembershipOk (joinAt (createVlan o i p v) i p v st).2 ↔
      if st = sok then JoinsForwarding o p else ¬ HostMember o.ale v := by
  have hothers : ∀ j, j ≠ i → ((createVlan o i p v).vlan j).isFree = false →
      EntryOk (createVlan o i p v) j := by
    intro j hne hju
    have hold := h.ok j (by rw [createVlan_of_ne hne] at hju; exact hju)
    refine ⟨?_,?_⟩
    · rw [createVlan_of_ne hne]
      exact hold.within
    · rw [createVlan_of_ne hne]
      exact hold.host
  by_cases hst : st = sok
  · subst hst
    rw [if_pos rfl,membershipOk_joinAt_iff (by simp)
      (by rw [createVlan_self]; exact dynamicEntry_host h.defaultHost) (by simp) hothers,
      createVlan_self,dynamicEntry_allowed_iff,dynamicEntry_vlanId]
    refine and_iff_left ?_
    intro j hne hju hid
    exact absurd hid (created_alone h.packed hget hne hju)
  · rw [if_neg hst,joinAt_failed hst]
    constructor
    · intro hok hhost
      have hiff := (hok i (by simp)).host
      rw [createVlan_self,dynamicEntry_vlanId,dynamicEntry_virtActiveMask] at hiff
      exact hiff.mp hhost rfl
    · intro hno j hju
      by_cases hne : j = i
      · subst hne
        refine ⟨by simp,?_⟩
        rw [createVlan_self,dynamicEntry_vlanId,dynamicEntry_virtActiveMask]
        exact iff_of_false hno (by simp)
      · exact hothers j hne hju

/-- No other entry in use has the VLAN of an active entry: the two would
share its ALE entry, so the other would be active too. -/
theorem active_alone (h : MembershipInv o) (hl : Leaves o p v mac i) (hne : j ≠ i)
    (hju : (o.vlan j).isFree = false) : (o.vlan j).vlanId ≠ (o.vlan i).vlanId := by
  intro heq
  have hu := getVlan_inUse h.packed hl.found
  have hlt := lt_of_getVlan h.packed hl.found hne hju (heq.trans (getVlan_id hl.found))
  have hoff := h.shadowed j i hju hu hlt heq
  have hhost := (h.ok i hu).host.mpr (ne_zero_of_isSet hl.active)
  rw [← heq,(h.ok j hju).host] at hhost
  exact hhost hoff

/-- The host port leaves the VLAN with its last port if an ioctl of the
leave takes it out. -/
theorem hostMember_left (h : MembershipInv o) (hl : Leaves o p v mac i) :
    HostMember (leaveAt o i p v setup remove).2.ale (o.vlan i).vlanId ↔
      ¬ (((o.vlan i).retire p).virtActiveMask = 0#32 ∧
        (setup = sok ∨ ((o.vlan i).isStatic = false ∧ remove = sok))) := by
  have hon : (o.vlan i).virtActiveMask ≠ 0#32 := ne_zero_of_isSet hl.active
  rw [hostMember_leaveAt]
  simp [(h.ok i (getVlan_inUse h.packed hl.found)).host,hon]

/-- A leave keeps the laws exactly when one that empties the VLAN takes the
host port out of the ALE entry. -/
theorem leave_membershipOk_iff (h : MembershipInv o) (hl : Leaves o p v mac i) :
    MembershipOk (leaveAt o i p v setup remove).2 ↔
      (((o.vlan i).retire p).virtActiveMask = 0#32 →
        setup = sok ∨ ((o.vlan i).isStatic = false ∧ remove = sok)) := by
  have hu := getVlan_inUse h.packed hl.found
  have hself : (leaveAt o i p v setup remove).2.vlan i = (o.vlan i).retire p := by
    rw [leaveAt_vlan,update_self]
  have hrest : ∀ j, j ≠ i → (leaveAt o i p v setup remove).2.vlan j = o.vlan j := by
    intro j hj
    rw [leaveAt_vlan,update_of_ne hj]
  constructor
  · intro hok hz
    have hiff := (hok i (by rw [hself]; exact hu)).host
    rw [hself] at hiff
    change HostMember _ (o.vlan i).vlanId ↔ _ at hiff
    rw [hostMember_left h hl] at hiff
    by_contra hno
    exact hiff.mp (fun hc => hno hc.2) hz
  · intro hkeep j hju
    by_cases hj : j = i
    · subst hj
      refine ⟨?_,?_⟩
      · rw [hself]
        exact within_clearBit (h.ok j hu).within
      · rw [hself]
        change HostMember _ (o.vlan j).vlanId ↔ _
        rw [hostMember_left h hl]
        constructor
        · intro hc hz
          exact hc ⟨hz,hkeep hz⟩
        · intro hz hc
          exact hz hc.1
    · rw [hrest j hj] at hju
      refine ⟨?_,?_⟩
      · rw [hrest j hj]
        exact (h.ok j hju).within
      · rw [hrest j hj,hostMember_leaveAt,if_neg (fun hc => active_alone h hl hj hju hc.1)]
        exact (h.ok j hju).host

/-- From the invariant, a call keeps the laws exactly under its condition. -/
theorem serve_membershipOk_iff {c : Call} (h : MembershipInv o) :
    MembershipOk (serve o c) ↔ KeepsMembership o c := by
  cases c with
  | vepaUse t => exact iff_of_true (fun i hu => ⟨(h.ok i hu).within,(h.ok i hu).host⟩) trivial
  | leave p v mac setup remove =>
    unfold serve KeepsMembership
    dsimp only
    by_cases hl : ∃ i, Leaves o p v mac i
    · obtain ⟨i,hi⟩ := hl
      rw [leave_of_leaves hi,leave_membershipOk_iff h hi]
      constructor
      · intro hk j hj
        obtain rfl : i = j := Option.some.inj (hi.found.symm.trans hj.found)
        exact hk
      · exact fun hk => hk i hi
    · rw [(leave_refused (not_exists.mp hl)).2]
      exact iff_of_true h.ok fun i hi => absurd ⟨i,hi⟩ hl
  | join p v mac st =>
    unfold serve KeepsMembership
    dsimp only
    have hmove := join_cases o p v mac st
    generalize join o p v mac st = r at hmove ⊢
    cases hmove with
    | mcastAddr hmac => exact iff_of_true h.ok fun hc => absurd hmac (by simp [hc])
    | notAllowed i hmac hget hmember =>
      refine iff_of_true h.ok fun _ => ⟨?_,fun hn => absurd (hget.symm.trans hn) (by simp)⟩
      intro j hj hm
      obtain rfl : i = j := Option.some.inj (hget.symm.trans hj)
      exact absurd (hmember.symm.trans hm) (by decide)
    | noRoom hmac hget hfree =>
      exact iff_of_true h.ok fun _ =>
        ⟨fun i hi => absurd (hget.symm.trans hi) (by simp),fun _ hf => absurd hfree hf⟩
    | known i hmac hget hmember =>
      by_cases hst : st = sok
      · subst hst
        rw [known_membershipOk_iff h hget hmember]
        constructor
        · intro hk _
          refine ⟨?_,fun hn => absurd (hget.symm.trans hn) (by simp)⟩
          intro j hj _ _
          obtain rfl : i = j := Option.some.inj (hget.symm.trans hj)
          exact hk
        · exact fun hk => (hk hmac).1 i hget hmember rfl
      · rw [joinAt_failed hst]
        exact iff_of_true h.ok fun _ =>
          ⟨fun i _ _ hs => absurd hs hst,fun hn => absurd (hget.symm.trans hn) (by simp)⟩
    | created i hmac hget hfree =>
      rw [created_membershipOk_iff h hget]
      constructor
      · intro hk _
        exact ⟨fun i hi => absurd (hget.symm.trans hi) (by simp),fun _ _ => hk⟩
      · exact fun hk => (hk hmac).2 hget (by simp [hfree])

/-- Rewriting the active ports of entries keeps the shadowed ones inactive
when it activates none of them. -/
theorem Shadowed.of_entries {o' : VlanObj} (h : Shadowed o)
    (hf : ∀ j, (o'.vlan j).isFree = (o.vlan j).isFree)
    (hid : ∀ j, (o'.vlan j).vlanId = (o.vlan j).vlanId)
    (ha : ∀ j k, j < k → (o.vlan k).isFree = false → (o.vlan j).vlanId = (o.vlan k).vlanId →
      (o.vlan j).virtActiveMask = 0#32 → (o'.vlan j).virtActiveMask = 0#32) : Shadowed o' := by
  intro j k hj hk hlt heq
  rw [hf] at hj hk
  rw [hid,hid] at heq
  exact ha j k hlt hk heq (h j k hj hk hlt heq)

theorem MemberHost.of_entries {o' : VlanObj} (h : MemberHost o)
    (hf : ∀ j, (o'.vlan j).isFree = (o.vlan j).isFree)
    (hm : ∀ j, (o'.vlan j).memberMask = (o.vlan j).memberMask) : MemberHost o' := by
  intro j hj
  rw [hf] at hj
  rw [hm]
  exact h j hj

/-- A join at the last entry of a VLAN activates no shadowed one. -/
theorem shadowed_joinAt (h : Shadowed o)
    (hlast : ∀ j, i < j → (o.vlan j).isFree = false → (o.vlan i).vlanId ≠ (o.vlan j).vlanId) :
    Shadowed (joinAt o i p v st).2 := by
  by_cases hst : st = sok
  · subst hst
    refine h.of_entries (fun j => isFree_joinAt) (fun j => ?_) ?_
    · rw [joinAt_vlan]
      exact modify_field (o := o) VlanEntry.vlanId (VlanEntry.activate p) rfl j
    · intro j k hlt hk heq hz
      by_cases hj : j = i
      · subst hj
        exact absurd heq (hlast k hlt hk)
      · rw [joinAt_vlan,update_of_ne hj]
        exact hz
  · rw [joinAt_failed hst]
    exact h

theorem memberHost_joinAt (h : MemberHost o) : MemberHost (joinAt o i p v st).2 := by
  by_cases hst : st = sok
  · subst hst
    refine h.of_entries (fun j => isFree_joinAt) fun j => ?_
    rw [joinAt_vlan]
    exact modify_field (o := o) VlanEntry.memberMask (VlanEntry.activate p) rfl j
  · rw [joinAt_failed hst]
    exact h

/-- Everything but the laws survives a join at the last entry of a VLAN. -/
theorem MembershipInv.joinAt_of_ok (h : MemberHost o) (hs : Shadowed o)
    (hd : isSet o.defaultPortMask 0 = true)
    (hlast : ∀ j, i < j → (o.vlan j).isFree = false → (o.vlan i).vlanId ≠ (o.vlan j).vlanId)
    (hp : Packed (joinAt o i p v st).2) (hok : MembershipOk (joinAt o i p v st).2) :
    MembershipInv (joinAt o i p v st).2 :=
  ⟨hp,by rw [joinAt_settings.defaultPortMask]; exact hd,memberHost_joinAt h,
    shadowed_joinAt hs hlast,hok⟩

theorem memberHost_createVlan (h : MembershipInv o) : MemberHost (createVlan o i p v) := by
  intro j hj
  by_cases hne : j = i
  · subst hne
    rw [createVlan_self]
    exact dynamicEntry_host h.defaultHost
  · rw [createVlan_of_ne hne] at hj ⊢
    exact h.memberHost j hj

theorem shadowed_createVlan (h : MembershipInv o) (hget : getVlan o v = none) :
    Shadowed (createVlan o i p v) := by
  have hself : ((createVlan o i p v).vlan i).vlanId = v := by simp
  intro j k hj hk hlt heq
  by_cases hji : j = i
  · subst hji
    rw [createVlan_self,dynamicEntry_virtActiveMask]
  · by_cases hki : k = i
    · subst hki
      exact absurd (heq.trans hself) (created_alone h.packed hget hji hj)
    · rw [createVlan_of_ne hji] at hj heq ⊢
      rw [createVlan_of_ne hki] at hk heq
      exact h.shadowed j k hj hk hlt heq

/-- Everything but the laws survives a leave. -/
theorem MembershipInv.leaveAt_of_ok (h : MembershipInv o)
    (hp : Packed (leaveAt o i p v setup remove).2)
    (hok : MembershipOk (leaveAt o i p v setup remove).2) :
    MembershipInv (leaveAt o i p v setup remove).2 := by
  have hvlan : (leaveAt o i p v setup remove).2.vlan =
      update o.vlan i ((o.vlan i).retire p) := leaveAt_vlan
  have hfree : ∀ j, ((leaveAt o i p v setup remove).2.vlan j).isFree = (o.vlan j).isFree := by
    intro j
    rw [hvlan]
    exact modify_field (o := o) VlanEntry.isFree (VlanEntry.retire p) rfl j
  refine ⟨hp,?_,h.memberHost.of_entries hfree fun j => ?_,
    h.shadowed.of_entries hfree (fun j => ?_) ?_,hok⟩
  · rw [leaveAt_settings.defaultPortMask]
    exact h.defaultHost
  · rw [hvlan]
    exact modify_field (o := o) VlanEntry.memberMask (VlanEntry.retire p) rfl j
  · rw [hvlan]
    exact modify_field (o := o) VlanEntry.vlanId (VlanEntry.retire p) rfl j
  · intro j k _ _ _ hz
    rw [hvlan]
    by_cases hj : j = i
    · subst hj
      rw [update_self]
      simp [VlanEntry.retire,hz,clearBit]
    · rw [update_of_ne hj]
      exact hz

/-- A call that keeps the laws keeps the whole invariant. -/
theorem membershipInv_serve {c : Call} (h : MembershipInv o) (hok : MembershipOk (serve o c)) :
    MembershipInv (serve o c) := by
  have hp : Packed (serve o c) := packed_serve h.packed
  cases c with
  | vepaUse t => exact ⟨hp,h.defaultHost,h.memberHost,h.shadowed,hok⟩
  | leave p v mac setup remove =>
    unfold serve at hp hok ⊢
    dsimp only at hp hok ⊢
    by_cases hl : ∃ i, Leaves o p v mac i
    · obtain ⟨i,hi⟩ := hl
      rw [leave_of_leaves hi] at hp hok ⊢
      exact h.leaveAt_of_ok hp hok
    · rw [(leave_refused (not_exists.mp hl)).2]
      exact h
  | join p v mac st =>
    unfold serve at hp hok ⊢
    dsimp only at hp hok ⊢
    have hmove := join_cases o p v mac st
    generalize join o p v mac st = r at hmove hp hok ⊢
    cases hmove with
    | mcastAddr hmac => exact h
    | notAllowed i hmac hget hmember => exact h
    | noRoom hmac hget hfree => exact h
    | known i hmac hget hmember =>
      refine .joinAt_of_ok h.memberHost h.shadowed h.defaultHost ?_ hp hok
      intro j hlt hju heq
      have hlt' := lt_of_getVlan h.packed hget (Fin.ne_of_gt hlt) hju
        (heq.symm.trans (getVlan_id hget))
      exact absurd hlt' (lt_asymm hlt)
    | created i hmac hget hfree =>
      refine .joinAt_of_ok (memberHost_createVlan h) (shadowed_createVlan h hget) h.defaultHost ?_
        hp hok
      intro j hlt hju heq
      have hself : ((createVlan o i p v).vlan i).vlanId = v := by simp
      exact created_alone h.packed hget (Fin.ne_of_gt hlt) hju (heq.symm.trans hself)

/-- A configuration that passes the checks is saved whole. -/
theorem accepted_eq (h : AcceptedCfg cfg) : accepted cfg = cfg.vlanCfg := by
  unfold accepted
  rw [if_neg (Nat.not_lt.mpr h.1),List.takeWhile_eq_self_iff]
  exact fun c hc => decide_eq_true (h.2 c hc)

theorem saveVlans_status {cs : List VlanCfg} (h : ∀ c ∈ cs, checkVlanCfg cfg c = sok) :
    ∀ (i : ℕ) (o : VlanObj), (saveVlans cfg i cs o).1 = sok := by
  induction cs with
  | nil => exact fun i o => rfl
  | cons c cs ih =>
    intro i o
    rw [saveVlans,if_pos (h c List.mem_cons_self)]
    exact ih (fun d hd => h d (List.mem_cons_of_mem c hd)) (i + 1) (saveVlan o i c)

theorem getCfg_status (h : AcceptedCfg cfg) : (getCfg cfg o).1 = sok := by
  unfold getCfg
  rw [if_neg (Nat.not_lt.mpr h.1)]
  exact saveVlans_status h.2 0 o

/-- One round of the start-up takes the host port out of its VLAN if the
set-up succeeds. -/
theorem hostMember_setupStatic (ioctl : ℕ → Status) (r : Status × VlanObj) (k : ℕ) :
    HostMember (setupStatic ioctl r k).2.ale w ↔ HostMember r.2.ale w ∧
      ∀ h : k < vlansMax, (r.2.vlan ⟨k,h⟩).isFree = false →
        (r.2.vlan ⟨k,h⟩).vlanId = w → ioctl k ≠ sok := by
  unfold setupStatic
  by_cases hk : k < vlansMax
  · rw [dif_pos hk]
    cases hu : (r.2.vlan ⟨k,hk⟩).isFree with
    | true => simp [hk,hu]
    | false =>
      simp only [Bool.false_eq_true,if_false,hk,forall_true_left,hu]
      unfold setupWithoutHost
      by_cases hs : ioctl k = sok
      · rw [hs,hostMember_setupVlan]
        by_cases hw : w = (r.2.vlan ⟨k,hk⟩).vlanId
        · rw [if_pos hw]
          refine iff_of_false ?_ fun hc => hc.2 hw.symm rfl
          rw [show isSet (withoutHost (r.2.vlan ⟨k,hk⟩).memberMask) 0 = false from
            isSet_clearBit_self _ 0]
          simp
        · rw [if_neg hw]
          exact ⟨fun hm => ⟨hm,fun heq => absurd heq.symm hw⟩,fun hc => hc.1⟩
      · rw [setupVlan_failed hs]
        exact ⟨fun hm => ⟨hm,fun _ => hs⟩,fun hc => hc.1⟩
  · rw [dif_neg hk]
    simp [hk]

/-- The start-up of static VLANs takes the host port out of every VLAN it
sets up. -/
theorem hostMember_foldl_setupStatic (ioctl : ℕ → Status) (ks : List ℕ)
    (r : Status × VlanObj) :
    HostMember (ks.foldl (setupStatic ioctl) r).2.ale w ↔ HostMember r.2.ale w ∧
      ∀ k ∈ ks, ∀ h : k < vlansMax, (r.2.vlan ⟨k,h⟩).isFree = false →
        (r.2.vlan ⟨k,h⟩).vlanId = w → ioctl k ≠ sok := by
  induction ks generalizing r with
  | nil => simp
  | cons k ks ih =>
    obtain ⟨ale,hstate⟩ := setupStatic_state ioctl [k] r
    rw [List.foldl_cons,List.foldl_nil] at hstate
    rw [List.foldl_cons,ih (setupStatic ioctl r k),hostMember_setupStatic,hstate]
    simp only [List.mem_cons,forall_eq_or_imp,and_assoc]

theorem hostMember_startUp {ale : U16 → Option AleVlan} {vepa : Option VepaTable.Table}
    {ioctl : ℕ → Status} (h : AcceptedCfg cfg) :
    HostMember (startUp ale vepa cfg ioctl).ale w ↔ HostMember ale w ∧
      ∀ (j : ℕ) (d : VlanCfg), cfg.vlanCfg[j]? = some d → d.vlanId = w → ioctl j ≠ sok := by
  unfold startUp init
  rw [if_pos rfl]
  dsimp only
  rw [if_pos (getCfg_status h),hostMember_foldl_setupStatic]
  obtain ⟨vlan,hstate,htable⟩ := getCfg_spec cfg (freeAll
    { zeroed ale vepa with
      defaultPortMask := cfg.defaultPortMask
      defaultVirtPortMask := cfg.defaultVirtPortMask
      dVlanSwtFwdEn := cfg.dVlanSwtFwdEn
      hMutex := true })
  rw [hstate]
  dsimp only
  have hcount : (freeAll
      { zeroed ale vepa with
        defaultPortMask := cfg.defaultPortMask
        defaultVirtPortMask := cfg.defaultVirtPortMask
        dVlanSwtFwdEn := cfg.dVlanSwtFwdEn
        hMutex := true }).numVlans = 0 := rfl
  rw [hcount,Nat.zero_add,accepted_eq h]
  rw [accepted_eq h] at htable
  refine and_congr Iff.rfl ?_
  constructor
  · intro hall j d hd hid
    have hj : j < cfg.vlanCfg.length := (List.getElem?_eq_some_iff.mp hd).1
    have hj' : j < vlansMax := Nat.lt_of_lt_of_le hj h.1
    refine hall j (List.mem_range.mpr hj) hj' ?_ ?_
    · rw [htable ⟨j,hj'⟩]
      simp [hd,staticEntry]
    · rw [htable ⟨j,hj'⟩]
      simpa [hd,staticEntry] using hid
  · intro hall j hj hj' hu hid
    have hd := List.getElem?_eq_getElem (List.mem_range.mp hj)
    refine hall j _ hd ?_
    rw [htable ⟨j,hj'⟩] at hid
    simpa [hd,staticEntry] using hid

/-- The entries in use after start-up are those of the configuration. -/
theorem startUp_entry {ale : U16 → Option AleVlan} {vepa : Option VepaTable.Table}
    {ioctl : ℕ → Status} (h : AcceptedCfg cfg) (i : Fin vlansMax)
    (hu : ((startUp ale vepa cfg ioctl).vlan i).isFree = false) :
    ∃ c, cfg.vlanCfg[i.val]? = some c ∧ (startUp ale vepa cfg ioctl).vlan i = staticEntry c := by
  obtain ⟨vlan,ale',hstate,htable⟩ := init_spec (zeroed ale vepa) cfg ioctl
  unfold startUp at hu ⊢
  rw [hstate] at hu ⊢
  have hi := htable i
  rw [accepted_eq h] at hi
  cases hc : cfg.vlanCfg[i.val]? with
  | none =>
    rw [hc] at hi
    dsimp only at hu
    rw [hi] at hu
    simp at hu
  | some c =>
    rw [hc] at hi
    exact ⟨c,rfl,hi⟩

/-- Start-up establishes the laws exactly when it takes the host port out of
the static VLANs. -/
theorem startUp_membershipOk_iff {ale : U16 → Option AleVlan} {vepa : Option VepaTable.Table}
    {ioctl : ℕ → Status} (h : AcceptedCfg cfg) :
    MembershipOk (startUp ale vepa cfg ioctl) ↔ SetsUpStatic ale cfg ioctl := by
  have hpacked := packed_startUp ale vepa cfg ioctl
  constructor
  · intro hok i c hc hhost
    by_contra hno
    have hi : i < cfg.vlanCfg.length := (List.getElem?_eq_some_iff.mp hc).1
    have hi' : i < vlansMax := Nat.lt_of_lt_of_le hi h.1
    have hcount : (startUp ale vepa cfg ioctl).numVlans = cfg.vlanCfg.length := by
      obtain ⟨vlan,ale',hstate,-⟩ := init_spec (zeroed ale vepa) cfg ioctl
      unfold startUp
      rw [hstate,← accepted_eq h]
      exact Nat.zero_add _
    have hu : ((startUp ale vepa cfg ioctl).vlan ⟨i,hi'⟩).isFree = false :=
      (hpacked.inUse ⟨i,hi'⟩).mpr (by rw [hcount]; exact hi)
    obtain ⟨d,hd,hentry⟩ := startUp_entry h ⟨i,hi'⟩ hu
    obtain rfl : c = d := Option.some.inj (hc.symm.trans hd)
    have hiff := (hok ⟨i,hi'⟩ hu).host
    rw [hentry] at hiff
    change HostMember _ c.vlanId ↔ (0#32 : U32) ≠ 0#32 at hiff
    refine hiff.mp (hostMember_startUp h |>.mpr ⟨hhost,?_⟩) rfl
    intro j d hd hid hs
    exact hno ⟨j,d,hd,hid,hs⟩
  · intro hset i hu
    obtain ⟨c,hc,hentry⟩ := startUp_entry h i hu
    rw [hentry] at hu
    refine ⟨?_,?_⟩
    · rw [hentry]
      exact within_zero
    · rw [hentry]
      refine iff_of_false ?_ fun hne => hne rfl
      intro hhost
      obtain ⟨hbefore,hall⟩ := (hostMember_startUp h).mp hhost
      obtain ⟨j,d,hd,hid,hs⟩ := hset i.val c hc hbefore
      exact hall j d hd hid hs

theorem membershipInv_startUp {ale : U16 → Option AleVlan} {vepa : Option VepaTable.Table}
    {ioctl : ℕ → Status} (h : AcceptedCfg cfg) (hdefault : isSet cfg.defaultPortMask 0 = true)
    (hmembers : ∀ c ∈ cfg.vlanCfg, isSet c.memberMask 0 = true)
    (hset : SetsUpStatic ale cfg ioctl) : MembershipInv (startUp ale vepa cfg ioctl) := by
  refine ⟨packed_startUp ale vepa cfg ioctl,?_,?_,?_,(startUp_membershipOk_iff h).mpr hset⟩
  · obtain ⟨vlan,ale',hstate,-⟩ := init_spec (zeroed ale vepa) cfg ioctl
    unfold startUp
    rw [hstate]
    exact hdefault
  · intro i hu
    obtain ⟨c,hc,hentry⟩ := startUp_entry h i hu
    rw [hentry]
    exact hmembers c (List.mem_of_getElem? hc)
  · intro i j hi _ _ _
    obtain ⟨c,-,hentry⟩ := startUp_entry h i hi
    rw [hentry]
    rfl

/-- In every run of joins and leaves after an initialisation whose static
VLANs and default mask name the host port, with any outcome of the ioctls:
both laws hold of every entry in use in every state reached exactly when
start-up and every call keep them. -/
theorem membership_holds_iff (ale : U16 → Option AleVlan) (vepa : Option VepaTable.Table)
    (cfg : Cfg) (ioctl : ℕ → Status) (calls : List Call) (haccepted : AcceptedCfg cfg)
    (hdefault : isSet cfg.defaultPortMask 0 = true)
    (hmembers : ∀ c ∈ cfg.vlanCfg, isSet c.memberMask 0 = true) :
    Along serve MembershipOk (startUp ale vepa cfg ioctl) calls ↔
      SetsUpStatic ale cfg ioctl ∧
      Guarded serve KeepsMembership (startUp ale vepa cfg ioctl) calls := by
  have hruns : SetsUpStatic ale cfg ioctl →
      (Along serve MembershipOk (startUp ale vepa cfg ioctl) calls ↔
        Guarded serve KeepsMembership (startUp ale vepa cfg ioctl) calls) := by
    intro hset
    apply along_iff_guarded (I := MembershipInv)
    · exact fun o h => h.ok
    · exact fun o c h hk => membershipInv_serve h ((serve_membershipOk_iff h).mpr hk)
    · exact fun o c h => serve_membershipOk_iff h
    · exact membershipInv_startUp haccepted hdefault hmembers hset
  constructor
  · intro h
    have hset := (startUp_membershipOk_iff haccepted).mp (along_start h)
    exact ⟨hset,(hruns hset).mp h⟩
  · rintro ⟨hset,h⟩
    exact (hruns hset).mpr h

/-- A switch port joins and leaves the static VLAN, which had the host port
before, and a VLAN it creates; no VLAN can be removed. -/
theorem membership_holds_static :
    Along serve MembershipOk (startUp hostAle none staticCfg fun _ => sok)
      [.join switchPort 100#16 clientAddr sok,.join switchPort 200#16 clientAddr sok,
        .leave switchPort 100#16 clientAddr sok efail,
        .leave switchPort 200#16 clientAddr sok efail] := by
  have hknown : getVlan staticStart 100#16 = some ⟨0,vlansMax_pos⟩ := by decide
  have halone : ∀ j, (staticStart.vlan j).isFree = false → j = ⟨0,vlansMax_pos⟩ := by decide
  have hunknown : getVlan (serve staticStart (.join switchPort 100#16 clientAddr sok)) 200#16 =
      none := by decide
  refine (membership_holds_iff hostAle none staticCfg (fun _ => sok) _
    ⟨by decide,by simpa [staticCfg] using checkVlanCfg_switchVlan⟩ (by decide)
    (by decide)).mpr ⟨fun i c hc _ => ⟨i,c,hc,rfl,rfl⟩,?_⟩
  rw [startUp,init_staticCfg]
  refine ⟨fun _ => ⟨?_,?_⟩,fun _ => ⟨?_,fun _ _ => ?_⟩,?_,?_,trivial⟩
  · intro i hi _ _ j hj _
    rw [halone j hj]
    exact Option.some.inj (hknown.symm.trans hi)
  · intro hnone
    rw [hknown] at hnone
    contradiction
  · intro i hi
    rw [hunknown] at hi
    contradiction
  · exact ⟨rfl,by decide,by decide⟩
  · exact fun i _ _ => Or.inl rfl
  · exact fun i _ _ => Or.inl rfl

/-- A MAC-only port that creates a VLAN is active without being a member;
and a last port that leaves while both ioctls fail leaves the host port
behind. -/
theorem membership_broken_by_create :
    ¬ Along serve MembershipOk (plainStart true) [.join macPort 100#16 clientAddr sok] ∧
      ¬ Along serve MembershipOk (plainStart true)
        [.join switchPort 100#16 clientAddr sok,
          .leave switchPort 100#16 clientAddr efail efail] := by
  constructor
  · intro h
    have hwithin := (along_final h ⟨0,by decide⟩ (by decide)).within
    revert hwithin
    decide
  · intro h
    have hhost := (along_final h ⟨0,by decide⟩ (by decide)).host.mp ⟨_,rfl,by decide⟩
    revert hhost
    decide

end EthernetFirmware.VlanMembership
