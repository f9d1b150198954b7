import EthernetFirmware.VlanJoinLeave

/-!
# VLAN slots over restarts

The table over any sequence of joins, leaves, deinitialisations and
further initialisations. It is well formed when the count fits the table,
no two entries in use share a VLAN, and every entry in use is a static
VLAN or has an active port, so that a join runs out of entries only when
all of them are needed. Each event has its exact condition: nothing frees
the entry of a dynamic VLAN or resets the count.
-/

namespace EthernetFirmware.VlanSlots

open Function BitMasks RemoteConfig VlanTable VlanJoinLeave GuardedRuns

variable {o : VlanObj} {i j : Fin vlansMax} {p : PortId} {v w : U16} {mac : MacAddr}
  {st setup remove : Status} {cfg : Cfg}

/-- Events of the table's whole life. -/
inductive Event where
  /-- A call on the table. -/
  | call (c : Call)
  /-- `EthFwVlan_init`. -/
  | init (cfg : Cfg) (mutex : Bool) (ioctl : ℕ → Status)
  /-- `EthFwVlan_deinit`. -/
  | deinit (ioctl : ℕ → Status)

/-- State after an event. -/
def step (o : VlanObj) : Event → VlanObj
  | .call c => serve o c
  | .init cfg mutex ioctl => (init o cfg mutex ioctl).2
  | .deinit ioctl => deinit o ioctl

/-- Indices at which the loops of an event read or write the table. -/
def accesses (o : VlanObj) : Event → List ℕ
  | .call (.join _ _ _ _) => List.range o.numVlans ++ List.range vlansMax
  | .call (.leave _ _ _ _ _) => List.range o.numVlans
  | .call (.vepaUse _) => []
  | .init cfg mutex ioctl => List.range vlansMax ++ List.range (accepted cfg).length ++
      List.range (init o cfg mutex ioctl).2.numVlans
  | .deinit _ => List.range o.numVlans

/-- The entry is needed: static, or with an active port. -/
def Needed (e : VlanEntry) : Prop := e.isStatic = true ∨ e.virtActiveMask ≠ 0#32

/-- The table is well formed. -/
structure TableOk (o : VlanObj) : Prop where
  /-- The count fits the table. -/
  bound : o.numVlans ≤ vlansMax
  /-- No two entries in use share a VLAN. -/
  distinct : ∀ i j, (o.vlan i).isFree = false → (o.vlan j).isFree = false →
    (o.vlan i).vlanId = (o.vlan j).vlanId → i = j
  /-- Every entry in use is needed. -/
  needed : ∀ i, (o.vlan i).isFree = false → Needed (o.vlan i)

/-- An event stays inside the table, and a join of an unknown VLAN whose
ioctl succeeds lacks room only when every entry is in use and needed. -/
def EventOk (o : VlanObj) (e : Event) : Prop :=
  (∀ k ∈ accesses o e, k < vlansMax) ∧
  ∀ p v mac, e = .call (.join p v mac sok) → getVlan o v = none →
    (join o p v mac sok).1 = ealloc → ∀ i, (o.vlan i).isFree = false ∧ Needed (o.vlan i)

/-- When an event keeps the table well formed. -/
def KeepsTable (o : VlanObj) : Event → Prop
  | .call (.join _ v mac st) => mac.isMcast = false → getVlan o v = none → freeVlan o ≠ none →
    o.numVlans < vlansMax ∧ st = sok
  | .call (.leave p v mac _ _) => ∀ i, Leaves o p v mac i → (o.vlan i).isFree = false →
    (o.vlan i).isStatic = false → ((o.vlan i).retire p).virtActiveMask ≠ 0#32
  | .call (.vepaUse _) => True
  | .init cfg mutex _ => mutex = true →
    o.numVlans + (accepted cfg).length ≤ vlansMax ∧ ((accepted cfg).map VlanCfg.vlanId).Nodup
  | .deinit _ => True

/-- What every event keeps: entries in use are counted, and free entries
are dynamic. -/
structure Counted (o : VlanObj) : Prop where
  /-- An entry in use is one the look-up scans. -/
  inUse : ∀ i, (o.vlan i).isFree = false → i.val < o.numVlans
  /-- A free entry is not marked static. -/
  freeDynamic : ∀ i, (o.vlan i).isFree = true → (o.vlan i).isStatic = false

/-- Flags and count decide whether the entries in use are counted. -/
theorem Counted.of_same {o' : VlanObj} (h : Counted o) (hn : o'.numVlans = o.numVlans)
    (hf : ∀ i, (o'.vlan i).isFree = (o.vlan i).isFree)
    (hs : ∀ i, (o'.vlan i).isStatic = (o.vlan i).isStatic) : Counted o' := by
  refine ⟨fun i hi => ?_,fun i hi => ?_⟩
  · rw [hf] at hi
    rw [hn]
    exact h.inUse i hi
  · rw [hf] at hi
    rw [hs]
    exact h.freeDynamic i hi

/-- The first free entry is not beyond the count. -/
theorem Counted.free_le (h : Counted o) (hfree : freeVlan o = some i) : i.val ≤ o.numVlans := by
  obtain ⟨-,hbefore⟩ := freeVlan_eq_some_iff.mp hfree
  by_contra hlt
  let k : Fin vlansMax := ⟨o.numVlans,by omega⟩
  have hk : k < i := Fin.mk_lt_of_lt_val (by omega)
  exact absurd (h.inUse k (hbefore k hk)) (Nat.lt_irrefl _)

theorem isStatic_joinAt : ((joinAt o i p v st).2.vlan j).isStatic = (o.vlan j).isStatic := by
  by_cases h : st = sok
  · subst h
    rw [joinAt_vlan]
    exact modify_field (o := o) VlanEntry.isStatic (VlanEntry.activate p) rfl j
  · rw [joinAt_failed h]

theorem counted_joinAt (h : Counted o) : Counted (joinAt o i p v st).2 :=
  h.of_same joinAt_settings.numVlans (fun _ => isFree_joinAt) fun _ => isStatic_joinAt

theorem counted_createVlan (h : Counted o) (hfree : freeVlan o = some i) :
    Counted (createVlan o i p v) := by
  have hle := h.free_le hfree
  refine ⟨fun j hj => ?_,fun j hj => ?_⟩
  · change j.val < o.numVlans + 1
    by_cases hne : j = i
    · subst hne
      omega
    · rw [createVlan_of_ne hne] at hj
      have := h.inUse j hj
      omega
  · by_cases hne : j = i
    · subst hne
      rw [createVlan_self,dynamicEntry_isFree] at hj
      exact absurd hj (by decide)
    · rw [createVlan_of_ne hne] at hj ⊢
      exact h.freeDynamic j hj

theorem counted_leaveAt (h : Counted o) : Counted (leaveAt o i p v setup remove).2 := by
  refine h.of_same leaveAt_settings.numVlans (fun j => ?_) fun j => ?_
  · rw [leaveAt_vlan]
    exact modify_field (o := o) VlanEntry.isFree (VlanEntry.retire p) rfl j
  · rw [leaveAt_vlan]
    exact modify_field (o := o) VlanEntry.isStatic (VlanEntry.retire p) rfl j

/-- The entries in use after initialisation are the saved static VLANs. -/
theorem init_entry {ioctl : ℕ → Status} (i : Fin vlansMax) :
    ((init o cfg true ioctl).2.vlan i).isFree = false ↔ i.val < (accepted cfg).length := by
  obtain ⟨vlan,ale,hstate,htable⟩ := init_spec o cfg ioctl
  rw [hstate]
  change (vlan i).isFree = false ↔ _
  rw [htable i]
  by_cases hi : i.val < (accepted cfg).length <;> simp [hi,staticEntry]

theorem init_static {ioctl : ℕ → Status} (hi : i.val < (accepted cfg).length) :
    (init o cfg true ioctl).2.vlan i = staticEntry (accepted cfg)[i.val] := by
  obtain ⟨vlan,ale,hstate,htable⟩ := init_spec o cfg ioctl
  rw [hstate]
  change vlan i = _
  rw [htable i,List.getElem?_eq_getElem hi]
  rfl

theorem init_numVlans {ioctl : ℕ → Status} :
    (init o cfg true ioctl).2.numVlans = o.numVlans + (accepted cfg).length := by
  obtain ⟨vlan,ale,hstate,-⟩ := init_spec o cfg ioctl
  rw [hstate]

theorem counted_init {ioctl : ℕ → Status} : Counted (init o cfg true ioctl).2 := by
  refine ⟨fun i hi => ?_,fun i hi => ?_⟩
  · have hlt := init_entry i |>.mp hi
    rw [init_numVlans]
    omega
  · obtain ⟨vlan,ale,hstate,htable⟩ := init_spec o cfg ioctl
    rw [hstate] at hi ⊢
    change (vlan i).isFree = true at hi
    change (vlan i).isStatic = false
    rw [htable i] at hi ⊢
    by_cases hlt : i.val < (accepted cfg).length
    · simp [hlt,staticEntry] at hi
    · simp [hlt]

/-- Initialisation leaves a well-formed table exactly when the count still
fits and the saved static VLANs are different. -/
theorem init_tableOk_iff {ioctl : ℕ → Status} :
    TableOk (init o cfg true ioctl).2 ↔ o.numVlans + (accepted cfg).length ≤ vlansMax ∧
      ((accepted cfg).map VlanCfg.vlanId).Nodup := by
  have hmax := accepted_length_le cfg
  rw [List.nodup_iff_injective_get]
  constructor
  · intro h
    refine ⟨init_numVlans ▸ h.bound,?_⟩
    intro a b hab
    have ha : a.val < (accepted cfg).length := by simpa using a.isLt
    have hb : b.val < (accepted cfg).length := by simpa using b.isLt
    have heq := h.distinct ⟨a.val,by omega⟩ ⟨b.val,by omega⟩ ((init_entry _).mpr ha)
      ((init_entry _).mpr hb) (by rw [init_static ha,init_static hb]; simpa [staticEntry] using hab)
    exact Fin.ext (Fin.mk.inj heq)
  · rintro ⟨hbound,hinj⟩
    refine ⟨init_numVlans ▸ hbound,?_,?_⟩
    · intro i j hi hj hid
      have hi' := (init_entry i).mp hi
      have hj' := (init_entry j).mp hj
      rw [init_static hi',init_static hj'] at hid
      have heq := @hinj ⟨i.val,by simpa using hi'⟩ ⟨j.val,by simpa using hj'⟩
        (by simpa [staticEntry] using hid)
      exact Fin.ext (Fin.mk.inj heq)
    · intro i hi
      rw [init_static ((init_entry i).mp hi)]
      exact Or.inl rfl

/-- A rewrite that keeps flags and identities and only adds active ports
keeps the table well formed. -/
theorem TableOk.of_same {o' : VlanObj} (h : TableOk o) (hn : o'.numVlans = o.numVlans)
    (hf : ∀ i, (o'.vlan i).isFree = (o.vlan i).isFree)
    (hid : ∀ i, (o'.vlan i).vlanId = (o.vlan i).vlanId)
    (hneed : ∀ i, (o.vlan i).isFree = false → Needed (o.vlan i) → Needed (o'.vlan i)) :
    TableOk o' := by
  refine ⟨hn ▸ h.bound,fun i j hi hj heq => ?_,fun i hi => ?_⟩
  · rw [hf] at hi hj
    rw [hid,hid] at heq
    exact h.distinct i j hi hj heq
  · rw [hf] at hi
    exact hneed i hi (h.needed i hi)

theorem needed_activate (e : VlanEntry) : Needed (e.activate p) :=
  Or.inr (setBit_ne_zero p.toNat_lt)

/-- A join of a VLAN that is found keeps the table well formed. -/
theorem tableOk_joinAt (h : TableOk o) : TableOk (joinAt o i p v st).2 := by
  by_cases hst : st = sok
  · subst hst
    refine h.of_same joinAt_settings.numVlans (fun _ => isFree_joinAt) (fun j => ?_) ?_
    · rw [joinAt_vlan]
      exact modify_field (o := o) VlanEntry.vlanId (VlanEntry.activate p) rfl j
    · intro j _ hneed
      rw [joinAt_vlan]
      by_cases hj : j = i
      · subst hj
        rw [update_self]
        exact needed_activate _
      · rw [update_of_ne hj]
        exact hneed
  · rw [joinAt_failed hst]
    exact h

/-- A join that creates a VLAN keeps the table well formed exactly when the
count has room and the set-up succeeds. -/
theorem created_tableOk_iff (hc : Counted o) (h : TableOk o) (hget : getVlan o v = none)
    (hfree : freeVlan o = some i) :
    TableOk (joinAt (createVlan o i p v) i p v st).2 ↔ o.numVlans < vlansMax ∧ st = sok := by
  constructor
  · intro hok
    have hbound := hok.bound
    rw [joinAt_settings.numVlans] at hbound
    refine ⟨hbound,?_⟩
    by_contra hst
    have hneed := hok.needed i
    rw [joinAt_failed hst] at hneed
    rcases hneed (by simp) with hstatic | hactive
    · rw [createVlan_self,dynamicEntry_isStatic,
        hc.freeDynamic i (freeVlan_eq_some_iff.mp hfree).1] at hstatic
      exact absurd hstatic (by decide)
    · rw [createVlan_self,dynamicEntry_virtActiveMask] at hactive
      exact hactive rfl
  · rintro ⟨hroom,rfl⟩
    have hself : (joinAt (createVlan o i p v) i p v sok).2.vlan i =
        (dynamicEntry o p v (o.vlan i)).activate p := by
      rw [joined_entry,createVlan_self]
    have hrest : ∀ j, j ≠ i → (joinAt (createVlan o i p v) i p v sok).2.vlan j = o.vlan j := by
      intro j hj
      rw [joinAt_vlan,update_of_ne hj,createVlan_of_ne hj]
    have hnew : ∀ j, j ≠ i → (o.vlan j).isFree = false → (o.vlan j).vlanId ≠ v :=
      fun j _ hj => getVlan_eq_none_iff.mp hget j (hc.inUse j hj)
    have hid : ((dynamicEntry o p v (o.vlan i)).activate p).vlanId = v := dynamicEntry_vlanId
    refine ⟨?_,fun j k hj hk heq => ?_,fun j hj => ?_⟩
    · rw [joinAt_settings.numVlans]
      exact hroom
    · by_cases hji : j = i
      · by_cases hki : k = i
        · exact hji.trans hki.symm
        · rw [hrest k hki] at hk heq
          rw [hji,hself,hid] at heq
          exact absurd heq.symm (hnew k hki hk)
      · rw [hrest j hji] at hj heq
        by_cases hki : k = i
        · rw [hki,hself,hid] at heq
          exact absurd heq (hnew j hji hj)
        · rw [hrest k hki] at hk heq
          exact h.distinct j k hj hk heq
    · by_cases hji : j = i
      · rw [hji,hself]
        exact needed_activate _
      · rw [hrest j hji] at hj ⊢
        exact h.needed j hj

/-- A leave keeps the table well formed exactly when it does not take the
last port out of a dynamic VLAN in use. -/
theorem leave_tableOk_iff (h : TableOk o) :
    TableOk (leaveAt o i p v setup remove).2 ↔ ((o.vlan i).isFree = false →
      (o.vlan i).isStatic = false → ((o.vlan i).retire p).virtActiveMask ≠ 0#32) := by
  have hvlan : (leaveAt o i p v setup remove).2.vlan =
      update o.vlan i ((o.vlan i).retire p) := leaveAt_vlan
  constructor
  · intro hok hu hdyn hz
    have hneed := hok.needed i
    rw [hvlan,update_self] at hneed
    rcases hneed hu with hstatic | hactive
    · exact absurd (hdyn.symm.trans hstatic) (by decide)
    · exact hactive hz
  · intro hkeep
    refine h.of_same leaveAt_settings.numVlans (fun j => ?_) (fun j => ?_) ?_
    · rw [hvlan]
      exact modify_field (o := o) VlanEntry.isFree (VlanEntry.retire p) rfl j
    · rw [hvlan]
      exact modify_field (o := o) VlanEntry.vlanId (VlanEntry.retire p) rfl j
    · intro j hu hneed
      rw [hvlan]
      by_cases hj : j = i
      · subst hj
        rw [update_self]
        cases hstatic : (o.vlan j).isStatic with
        | true => exact Or.inl hstatic
        | false => exact Or.inr (hkeep hu hstatic)
      · rw [update_of_ne hj]
        exact hneed

/-- Loops bounded by a count that fits stay inside the table. -/
theorem range_lt {n k : ℕ} (hn : n ≤ vlansMax) (hk : k ∈ List.range n) : k < vlansMax :=
  Nat.lt_of_lt_of_le (List.mem_range.mp hk) hn

/-- Between two well-formed tables, an event is as it should be. -/
theorem eventOk_of_tableOk {e : Event} (h : TableOk o) (hafter : TableOk (step o e)) :
    EventOk o e := by
  constructor
  · intro k hk
    match e, hafter, hk with
    | .call (.join _ _ _ _), _, hk =>
      rcases List.mem_append.mp hk with hk | hk
      · exact range_lt h.bound hk
      · exact range_lt (Nat.le_refl _) hk
    | .call (.leave _ _ _ _ _), _, hk => exact range_lt h.bound hk
    | .call (.vepaUse _), _, hk => exact absurd hk List.not_mem_nil
    | .init cfg mutex ioctl, hafter, hk =>
      rcases List.mem_append.mp hk with hk | hk
      · rcases List.mem_append.mp hk with hk | hk
        · exact range_lt (Nat.le_refl _) hk
        · exact range_lt (accepted_length_le _) hk
      · exact range_lt hafter.bound hk
    | .deinit _, _, hk => exact range_lt h.bound hk
  · intro p v mac _ hget hfull
    have hmove := join_cases o p v mac sok
    generalize join o p v mac sok = r at hmove hfull
    cases hmove with
    | mcastAddr hmac => simp [einvalidParams,ealloc] at hfull
    | notAllowed i hmac hfound hmember => simp [eperm,ealloc] at hfull
    | noRoom hmac _ hfree =>
      intro i
      have hu := freeVlan_eq_none_iff.mp hfree i
      exact ⟨hu,h.needed i hu⟩
    | known i hmac hfound hmember => exact absurd (hget.symm.trans hfound) (by simp)
    | created i hmac hget hfree =>
      rw [joinAt_status] at hfull
      exact absurd hfull (by decide)

theorem counted_step {e : Event} (h : Counted o) : Counted (step o e) := by
  match e with
  | .call (.vepaUse t) => exact ⟨h.inUse,h.freeDynamic⟩
  | .call (.leave p v mac setup remove) =>
    change Counted (leave o p v mac setup remove).2
    by_cases hl : ∃ i, Leaves o p v mac i
    · obtain ⟨i,hi⟩ := hl
      rw [leave_of_leaves hi]
      exact counted_leaveAt h
    · rw [(leave_refused (not_exists.mp hl)).2]
      exact h
  | .call (.join p v mac st) =>
    change Counted (join o p v mac st).2
    have hmove := join_cases o p v mac st
    generalize join o p v mac st = r at hmove ⊢
    cases hmove with
    | mcastAddr hmac => exact h
    | notAllowed i hmac hget hmember => exact h
    | noRoom hmac hget hfree => exact h
    | known i hmac hget hmember => exact counted_joinAt h
    | created i hmac hget hfree => exact counted_joinAt (counted_createVlan h hfree)
  | .init cfg mutex ioctl =>
    cases mutex with
    | true => exact counted_init
    | false => exact ⟨h.inUse,h.freeDynamic⟩
  | .deinit ioctl =>
    change Counted (deinit o ioctl)
    rw [deinit_state]
    exact ⟨h.inUse,h.freeDynamic⟩

/-- From a well-formed table, an event keeps it so exactly under its
condition. -/
theorem step_tableOk_iff {e : Event} (hc : Counted o) (h : TableOk o) :
    TableOk (step o e) ↔ KeepsTable o e := by
  match e with
  | .call (.vepaUse t) => exact iff_of_true ⟨h.bound,h.distinct,h.needed⟩ trivial
  | .call (.leave p v mac setup remove) =>
    change TableOk (leave o p v mac setup remove).2 ↔ _
    unfold KeepsTable
    by_cases hl : ∃ i, Leaves o p v mac i
    · obtain ⟨i,hi⟩ := hl
      rw [leave_of_leaves hi,leave_tableOk_iff h]
      constructor
      · intro hk j hj
        obtain rfl : i = j := Option.some.inj (hi.found.symm.trans hj.found)
        exact hk
      · exact fun hk => hk i hi
    · rw [(leave_refused (not_exists.mp hl)).2]
      exact iff_of_true h fun i hi => absurd ⟨i,hi⟩ hl
  | .call (.join p v mac st) =>
    change TableOk (join o p v mac st).2 ↔ _
    unfold KeepsTable
    have hmove := join_cases o p v mac st
    generalize join o p v mac st = r at hmove ⊢
    cases hmove with
    | mcastAddr hmac => exact iff_of_true h fun hno => absurd hmac (by simp [hno])
    | notAllowed i hmac hget hmember =>
      exact iff_of_true h fun _ hn => absurd (hget.symm.trans hn) (by simp)
    | noRoom hmac hget hfree => exact iff_of_true h fun _ _ hf => absurd hfree hf
    | known i hmac hget hmember =>
      exact iff_of_true (tableOk_joinAt h) fun _ hn => absurd (hget.symm.trans hn) (by simp)
    | created i hmac hget hfree =>
      rw [created_tableOk_iff hc h hget hfree]
      exact ⟨fun hk _ _ _ => hk,fun hk => hk hmac hget (by simp [hfree])⟩
  | .init cfg mutex ioctl =>
    unfold KeepsTable
    cases mutex with
    | true =>
      change TableOk (init o cfg true ioctl).2 ↔ _
      rw [init_tableOk_iff]
      exact ⟨fun hk _ => hk,fun hk => hk rfl⟩
    | false => exact iff_of_true ⟨h.bound,h.distinct,h.needed⟩ fun hf => absurd hf (by decide)
  | .deinit ioctl =>
    refine iff_of_true ?_ trivial
    change TableOk (deinit o ioctl)
    rw [deinit_state]
    exact ⟨h.bound,h.distinct,h.needed⟩

/-- Over any run of joins, leaves, deinitialisations and initialisations
after the first one: the table is well formed in every state, and every
event stays inside it and lacks room only when all entries are needed,
exactly when the first static VLANs are different and every event meets
its condition. -/
theorem slots_reused_iff (ale : U16 → Option AleVlan) (vepa : Option VepaTable.Table) (cfg : Cfg)
    (ioctl : ℕ → Status) (events : List Event) :
    Along step TableOk (startUp ale vepa cfg ioctl) events ∧
        Guarded step EventOk (startUp ale vepa cfg ioctl) events ↔
      ((accepted cfg).map VlanCfg.vlanId).Nodup ∧
        Guarded step KeepsTable (startUp ale vepa cfg ioctl) events := by
  have hstart : TableOk (startUp ale vepa cfg ioctl) ↔
      ((accepted cfg).map VlanCfg.vlanId).Nodup := by
    have hmax := accepted_length_le cfg
    unfold startUp
    rw [init_tableOk_iff]
    exact and_iff_right (by simpa [zeroed] using hmax)
  have hruns : TableOk (startUp ale vepa cfg ioctl) →
      (Along step TableOk (startUp ale vepa cfg ioctl) events ∧
        Guarded step EventOk (startUp ale vepa cfg ioctl) events ↔
        Guarded step KeepsTable (startUp ale vepa cfg ioctl) events) := by
    intro hok
    apply along_and_guarded_iff (I := fun o => Counted o ∧ TableOk o)
    · exact fun o h => h.2
    · exact fun o e h hk => ⟨counted_step h.1,(step_tableOk_iff h.1 h.2).mpr hk⟩
    · intro o e h
      rw [← step_tableOk_iff h.1 h.2]
      exact and_iff_left_of_imp (eventOk_of_tableOk h.2)
    · exact ⟨counted_init,hok⟩
  constructor
  · intro h
    have hok := along_start h.1
    exact ⟨hstart.mp hok,(hruns hok).mp h⟩
  · rintro ⟨hnodup,hkeeps⟩
    exact (hruns (hstart.mpr hnodup)).mpr hkeeps

/-- A port joins and leaves so many VLANs, one after the other. -/
def visits (n : ℕ) : List Event :=
  (List.range n).flatMap fun k =>
    [.call (.join switchPort (BitVec.ofNat 16 (100 + k)) clientAddr sok),
      .call (.leave switchPort (BitVec.ofNat 16 (100 + k)) clientAddr sok sok)]

set_option maxRecDepth 100000 in
/-- One dynamic VLAN that is joined and left keeps its entry; after
`vlansMax` of them no port is active and no VLAN can be created. -/
theorem slots_not_reused_after_leave :
    ¬ Along step TableOk (plainStart true) (visits 1) ∧
      ¬ Guarded step EventOk (plainStart true) (visits vlansMax ++
        [.call (.join switchPort 200#16 clientAddr sok)]) := by
  constructor
  · intro h
    have hneed := (along_final h).needed ⟨0,by decide⟩ (by decide)
    revert hneed
    unfold Needed
    decide
  · intro h
    have hunknown : getVlan (run step (plainStart true) (visits vlansMax)) 200#16 = none := by
      decide +kernel
    have hfull : (join (run step (plainStart true) (visits vlansMax)) switchPort 200#16 clientAddr
        sok).1 = ealloc := by
      decide +kernel
    have hneed := ((guarded_concat.mp h).2.2 switchPort 200#16 clientAddr rfl hunknown hfull
      ⟨0,by decide⟩).2
    revert hneed
    unfold Needed
    decide +kernel

end EthernetFirmware.VlanSlots
