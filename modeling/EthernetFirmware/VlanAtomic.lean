import EthernetFirmware.VlanJoinLeave

/-!
# Failing VLAN joins and leaves

A join or leave that returns an error should leave the table as it was. A
join of a VLAN in the table does: its ioctl comes before any change. A
join that creates the VLAN fills the entry and counts it before the ioctl,
and a leave clears the port before it programs the hardware and the VEPA
table; neither has a way back. Exactly the errors after these changes are
not atomic.
-/

namespace EthernetFirmware.VlanAtomic

open Function BitMasks RemoteConfig VlanTable VlanJoinLeave GuardedRuns

/-- Two objects have the same VLAN table and memberships. -/
structure SameTable (o o' : VlanObj) : Prop where
  /-- The entries are the same. -/
  vlan : o'.vlan = o.vlan
  /-- So is their count. -/
  numVlans : o'.numVlans = o.numVlans
  /-- So are the members of every VLAN. -/
  members : ∀ q w, isInVlan o' q w = isInVlan o q w

/-- A join or leave that returns an error leaves the table as it was. -/
def Atomic (o : VlanObj) : Call → Prop
  | .join p v mac st => (join o p v mac st).1 ≠ sok → SameTable o (join o p v mac st).2
  | .leave p v mac setup remove =>
    (leave o p v mac setup remove).1 ≠ sok → SameTable o (leave o p v mac setup remove).2
  | .vepaUse _ => True

/-- A join creates the VLAN. -/
def Creates (o : VlanObj) (v : U16) (mac : MacAddr) : Prop :=
  mac.isMcast = false ∧ getVlan o v = none ∧ freeVlan o ≠ none

/-- A call that has changed the table is not stopped by an error: the set-up
of a new VLAN succeeds, and so do the exclusion of the host port after the
last port has left and, in VEPA builds, the removal from the broadcast
entry. -/
def GoesThrough (o : VlanObj) : Call → Prop
  | .join _ v mac st => Creates o v mac → st = sok
  | .leave p v mac setup _ => ∀ i, Leaves o p v mac i →
    (((o.vlan i).retire p).virtActiveMask = 0#32 → setup = sok) ∧ BcastKnown o v
  | .vepaUse _ => True

variable {o o' : VlanObj} {i : Fin vlansMax} {p : PortId} {v : U16} {mac : MacAddr}
  {st setup remove : Status}

/-- Membership is read from the table. -/
theorem sameTable_of_eq (hv : o'.vlan = o.vlan) (hn : o'.numVlans = o.numVlans) :
    SameTable o o' := by
  refine ⟨hv,hn,fun q w => ?_⟩
  have hget : getVlan o' w = getVlan o w := getVlan_congr hn fun j => by rw [hv]
  unfold isInVlan
  rw [hget,hv]

/-- When a leave that passes its checks succeeds. -/
theorem leaveAt_goes_iff : (leaveAt o i p v setup remove).1 = sok ↔
    (((o.vlan i).retire p).virtActiveMask = 0#32 → setup = sok) ∧ BcastKnown o v := by
  by_cases hgo : ((o.vlan i).retire p).virtActiveMask = 0#32 → setup = sok
  · rw [and_iff_right hgo]
    unfold leaveAt
    dsimp only
    rw [modify_self]
    by_cases hz : ((o.vlan i).retire p).virtActiveMask = 0#32
    · rw [if_pos hz,if_pos (vacate_status.trans (hgo hz)),delBcast_ok_iff,vacate_state]
      rfl
    · rw [if_neg hz,if_pos rfl,delBcast_ok_iff]
      rfl
  · obtain ⟨hz,hsetup⟩ := Classical.not_imp.mp hgo
    refine iff_of_false (fun hok => ?_) fun h => hgo h.1
    unfold leaveAt at hok
    dsimp only at hok
    rw [modify_self,if_pos hz,if_neg (by rwa [vacate_status]),vacate_status] at hok
    exact hsetup hok

theorem leave_goes_iff (h : Leaves o p v mac i) : (leave o p v mac setup remove).1 = sok ↔
    (((o.vlan i).retire p).virtActiveMask = 0#32 → setup = sok) ∧ BcastKnown o v := by
  rw [leave_of_leaves h]
  exact leaveAt_goes_iff

/-- An entry is changed when an active port is retired. -/
theorem retire_ne (h : isSet (o.vlan i).virtActiveMask p.val.toNat = true) :
    (o.vlan i).retire p ≠ o.vlan i := by
  intro heq
  have hoff : isSet ((o.vlan i).retire p).virtActiveMask p.val.toNat = false :=
    isSet_clearBit_self _ _
  rw [heq] at hoff
  exact absurd (h.symm.trans hoff) (by decide)

/-- A leave that passes its checks changes the table. -/
theorem not_sameTable_leave (h : Leaves o p v mac i) :
    ¬ SameTable o (leave o p v mac setup remove).2 := by
  intro hsame
  have hvlan := hsame.vlan
  rw [leave_of_leaves h,leaveAt_vlan] at hvlan
  have hentry := congrFun hvlan i
  rw [update_self] at hentry
  exact retire_ne h.active hentry

/-- A join that creates the VLAN and then fails changes the table. -/
theorem not_sameTable_created (hfree : freeVlan o = some i) (hst : st ≠ sok) :
    ¬ SameTable o (joinAt (createVlan o i p v) i p v st).2 := by
  intro hsame
  have hvlan := hsame.vlan
  rw [joinAt_failed hst] at hvlan
  have hentry := congrArg VlanEntry.isFree (congrFun hvlan i)
  dsimp only at hentry
  rw [createVlan_self,dynamicEntry_isFree,(freeVlan_eq_some_iff.mp hfree).1] at hentry
  exact absurd hentry (by decide)

theorem join_atomic_iff : Atomic o (.join p v mac st) ↔ GoesThrough o (.join p v mac st) := by
  have hmove := join_cases o p v mac st
  unfold Atomic GoesThrough
  dsimp only
  generalize join o p v mac st = r at hmove ⊢
  cases hmove with
  | mcastAddr hmac =>
    refine iff_of_true (fun _ => sameTable_of_eq rfl rfl) fun h => ?_
    exact absurd (hmac.symm.trans h.1) (by decide)
  | notAllowed i hmac hget hmember =>
    refine iff_of_true (fun _ => sameTable_of_eq rfl rfl) fun h => ?_
    exact absurd (hget.symm.trans h.2.1) (Option.some_ne_none i)
  | noRoom hmac hget hfree =>
    exact iff_of_true (fun _ => sameTable_of_eq rfl rfl) fun h => absurd hfree h.2.2
  | known i hmac hget hmember =>
    refine iff_of_true (fun hfail => ?_) fun h => ?_
    · rw [joinAt_status] at hfail
      rw [joinAt_failed hfail]
      exact sameTable_of_eq rfl rfl
    · exact absurd (hget.symm.trans h.2.1) (Option.some_ne_none i)
  | created i hmac hget hfree =>
    have hcreates : Creates o v mac := ⟨hmac,hget,hfree ▸ Option.some_ne_none i⟩
    rw [joinAt_status,imp_iff_right hcreates]
    constructor
    · intro hatomic
      by_contra hst
      exact not_sameTable_created hfree hst (hatomic hst)
    · exact fun hst hfail => absurd hst hfail

theorem leave_atomic_iff :
    Atomic o (.leave p v mac setup remove) ↔ GoesThrough o (.leave p v mac setup remove) := by
  unfold Atomic GoesThrough
  dsimp only
  by_cases hl : ∃ i, Leaves o p v mac i
  · obtain ⟨i,hi⟩ := hl
    constructor
    · intro hatomic j hj
      obtain rfl : i = j := Option.some.inj (hi.found.symm.trans hj.found)
      by_contra hgo
      exact not_sameTable_leave hi (hatomic fun hok => hgo ((leave_goes_iff hi).mp hok))
    · exact fun hgo hfail => absurd ((leave_goes_iff hi).mpr (hgo i hi)) hfail
  · refine iff_of_true (fun _ => ?_) fun i hi => absurd ⟨i,hi⟩ hl
    rw [(leave_refused (not_exists.mp hl)).2]
    exact sameTable_of_eq rfl rfl

/-- A call is atomic exactly when no error stops it after it has changed the
table. -/
theorem atomic_iff (o : VlanObj) (c : Call) : Atomic o c ↔ GoesThrough o c := by
  cases c with
  | join p v mac st => exact join_atomic_iff
  | leave p v mac setup remove => exact leave_atomic_iff
  | vepaUse t => exact Iff.rfl

/-- In every state reached after initialisation, with any joins and leaves
before, a join or leave that returns an error leaves the table as it was
exactly when no error stops it after it has changed the table. -/
theorem join_leave_atomic_iff (ale : U16 → Option AleVlan) (vepa : Option VepaTable.Table)
    (cfg : Cfg) (ioctl : ℕ → Status) (calls : List Call) (c : Call) :
    Atomic (run serve (startUp ale vepa cfg ioctl) calls) c ↔
      GoesThrough (run serve (startUp ale vepa cfg ioctl) calls) c :=
  atomic_iff _ c

/-- The first join of a VLAN whose set-up fails leaves an entry behind, and
a failing set-up in the last leave leaves the port out of the VLAN. -/
theorem failed_calls_change_table :
    ¬ Atomic (plainStart true) (.join switchPort 100#16 clientAddr efail) ∧
      ¬ Atomic (run serve (plainStart true) [.join switchPort 100#16 clientAddr sok])
        (.leave switchPort 100#16 clientAddr efail sok) := by
  constructor
  · intro h
    have hcount := (h (by decide)).numVlans
    revert hcount
    decide
  · intro h
    have hmember := (h (by decide)).members switchPort 100#16
    revert hmember
    decide

end EthernetFirmware.VlanAtomic
