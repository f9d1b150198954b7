import Mathlib.Algebra.Order.Group.Nat
import Mathlib.Data.Nat.ModEq
import EthernetFirmware.EstClassifier

/-!
# Programming of the gate schedule

The schedule is started in the future: the base time is the current time
rounded up to a multiple of a hundred thousand cycles. Base time and cycle
time are then written to the configuration data base as seconds and
nanoseconds and as a fraction of a second, in 32-bit items.
-/

namespace EthernetFirmware.EstSchedule

open RemoteConfig EstClassifier

/-- `ADMIN_DELAY_OFFSET_FACTOR`. -/
def adminDelayOffsetFactor : BitVec 64 := 100000

/-- Cycle time as a fraction of a second. -/
structure CycleItems where
  /-- Numerator. -/
  numerator : U32
  /-- Denominator. -/
  denominator : U32

/-- Items that `EthFwEstDemo_setAdminControlList` writes. -/
structure Items where
  /-- Cycle time, unless it is zero. -/
  cycle : Option CycleItems
  /-- Base time, whole seconds. -/
  seconds : U32
  /-- Base time, nanoseconds. -/
  nanoseconds : U32
  /-- Interval and gate states of each entry. -/
  entries : List (U32 × U8)

/-- `EthFwEstDemo_setAdminControlList`; the data base takes every item. -/
def setAdminControlList (list : ControlList) : Items where
  cycle :=
    if 0 < list.cycleTime then some ⟨(list.cycleTime / 1000).setWidth 32,1000000⟩ else none
  seconds := (list.baseTime / 1000000000).setWidth 32
  nanoseconds := (list.baseTime % 1000000000).setWidth 32
  entries := list.gateCmdList.map fun c => (c.timeInterval,c.gateStateMask)

/-- `EthFwEstDemo_getAdminBaseTime`: a negative time is a failure. -/
def getAdminBaseTime (ts : BitVec 64) : Option (BitVec 64) := if ts.msb then none else some ts

/-- What `EthFwEstDemo_runSchedule` leaves. -/
structure Outcome where
  /-- Status returned. -/
  status : Status
  /-- The list, with the base time set. -/
  list : ControlList
  /-- `adminDelayOffset`, where it is set. -/
  adminDelayOffset : Option (BitVec 64)
  /-- Items written. -/
  items : Option Items

/-- What the environment of `EthFwEstDemo_runSchedule` answers. -/
structure Env where
  /-- `EthFwEstDemo_openDB`. -/
  openDB : Status
  /-- `EthFwEstDemo_setCommonParam`. -/
  setCommonParam : Status
  /-- `gptpmasterclock_getts64`. -/
  ts : BitVec 64
  /-- `uc_nc_askaction_push`. -/
  askaction : Status

/-- `EthFwEstDemo_runSchedule`; a division by zero gives no result. -/
def runSchedule (env : Env) (list : ControlList) : Option Outcome :=
  if env.openDB ≠ 0 then some ⟨env.openDB,list,none,none⟩
  else if env.setCommonParam ≠ 0 then some ⟨env.setCommonParam,list,none,none⟩
  else
    match getAdminBaseTime env.ts with
    | none => some ⟨env.askaction,list,none,some (setAdminControlList list)⟩
    | some time =>
      let offset := adminDelayOffsetFactor * list.cycleTime
      if offset = 0 then none
      else
        let list := { list with baseTime := (time + offset) / offset * offset }
        some ⟨env.askaction,list,some (offset.sdiv 1000),some (setAdminControlList list)⟩

/-- The base time is set to a multiple of the cycle time after the current
time and at most the delay later. -/
def BaseTimeOk (time cycleTime baseTime : ℕ) : Prop :=
  time < baseTime ∧ baseTime ≤ time + 100000 * cycleTime ∧ cycleTime ∣ baseTime

/-- The items denote exactly the base time and the cycle time of a list. -/
structure ItemsOk (list : ControlList) (items : Items) : Prop where
  /-- Seconds and nanoseconds are the base time. -/
  base : items.seconds.toNat * 10 ^ 9 + items.nanoseconds.toNat = list.baseTime.toNat
  /-- The fraction of a second is the cycle time in nanoseconds. -/
  cycle : 0 < list.cycleTime.toNat → ∃ f, items.cycle = some f ∧
    f.numerator.toNat * 10 ^ 9 = list.cycleTime.toNat * f.denominator.toNat

/-- The schedule is programmed as it should be: nothing is divided by zero,
the base time is right where the cycle time is positive, and what is
written denotes it. -/
def Programmed (env : Env) (list : ControlList) : Prop :=
  ∃ r, runSchedule env list = some r ∧ ∀ items, r.items = some items →
    (∀ time, getAdminBaseTime env.ts = some time → 0 < list.cycleTime.toNat →
      BaseTimeOk time.toNat list.cycleTime.toNat r.list.baseTime.toNat) ∧
    ItemsOk r.list items

/-- The condition on clock and list: a positive cycle time is a number of
microseconds below `2 ^ 32`; where the clock can be read the cycle time is
positive and some multiple of the delay lies after the current time and
below `2 ^ 32` seconds; where it cannot, the base time given does. -/
def Representable (ts : BitVec 64) (list : ControlList) : Prop :=
  (0 < list.cycleTime.toNat →
    1000 ∣ list.cycleTime.toNat ∧ list.cycleTime.toNat / 1000 < 2 ^ 32) ∧
  match getAdminBaseTime ts with
  | none => list.baseTime.toNat < 2 ^ 32 * 10 ^ 9
  | some time => 0 < list.cycleTime.toNat ∧ ∃ m, 100000 * list.cycleTime.toNat ∣ m ∧
      time.toNat < m ∧ m < 2 ^ 32 * 10 ^ 9

section Items

variable {list : ControlList}

/-- The base time written is the base time exactly below `2 ^ 32` seconds. -/
theorem base_items_iff (list : ControlList) :
    (setAdminControlList list).seconds.toNat * 10 ^ 9 +
        (setAdminControlList list).nanoseconds.toNat = list.baseTime.toNat ↔
      list.baseTime.toNat < 2 ^ 32 * 10 ^ 9 := by
  have hlt := list.baseTime.isLt
  have hseconds : (setAdminControlList list).seconds.toNat =
      list.baseTime.toNat / 10 ^ 9 % 2 ^ 32 := by
    unfold setAdminControlList
    rw [BitVec.toNat_setWidth,BitVec.toNat_udiv]
    rfl
  have hnanoseconds : (setAdminControlList list).nanoseconds.toNat =
      list.baseTime.toNat % 10 ^ 9 := by
    have hmod : list.baseTime.toNat % 10 ^ 9 < 10 ^ 9 := Nat.mod_lt _ (by omega)
    unfold setAdminControlList
    rw [BitVec.toNat_setWidth,BitVec.toNat_umod]
    exact Nat.mod_eq_of_lt (by change list.baseTime.toNat % 10 ^ 9 < _; omega)
  rw [hseconds,hnanoseconds]
  omega

/-- The fraction written is the cycle time exactly for whole microseconds
below `2 ^ 32`. -/
theorem cycle_items_iff (hpos : 0 < list.cycleTime.toNat) :
    (∃ f, (setAdminControlList list).cycle = some f ∧
        f.numerator.toNat * 10 ^ 9 = list.cycleTime.toNat * f.denominator.toNat) ↔
      1000 ∣ list.cycleTime.toNat ∧ list.cycleTime.toNat / 1000 < 2 ^ 32 := by
  have hcycle : (setAdminControlList list).cycle =
      some ⟨(list.cycleTime / 1000).setWidth 32,1000000⟩ := if_pos hpos
  have hnum : ((list.cycleTime / 1000).setWidth 32 : U32).toNat =
      list.cycleTime.toNat / 1000 % 2 ^ 32 := by
    rw [BitVec.toNat_setWidth,BitVec.toNat_udiv]
    rfl
  have hden : (1000000 : U32).toNat = 10 ^ 6 := rfl
  rw [hcycle]
  constructor
  · rintro ⟨f,hf,heq⟩
    cases hf
    rw [hnum,hden] at heq
    omega
  · rintro ⟨hdvd,hlt⟩
    refine ⟨_,rfl,?_⟩
    rw [hnum,hden,Nat.mod_eq_of_lt hlt]
    omega

/-- The items of a list are right exactly when both times can be written. -/
theorem itemsOk_iff (list : ControlList) :
    ItemsOk list (setAdminControlList list) ↔
      list.baseTime.toNat < 2 ^ 32 * 10 ^ 9 ∧
      (0 < list.cycleTime.toNat →
        1000 ∣ list.cycleTime.toNat ∧ list.cycleTime.toNat / 1000 < 2 ^ 32) := by
  constructor
  · rintro ⟨hbase,hcycle⟩
    exact ⟨(base_items_iff list).mp hbase,fun hpos => (cycle_items_iff hpos).mp (hcycle hpos)⟩
  · rintro ⟨hbase,hcycle⟩
    exact ⟨(base_items_iff list).mpr hbase,fun hpos => (cycle_items_iff hpos).mpr (hcycle hpos)⟩

end Items

section BaseTime

variable {time offset cycleTime : ℕ}

/-- The next multiple of the offset. -/
theorem nextMultiple (hpos : 0 < offset) :
    (time + offset) / offset * offset = (time / offset + 1) * offset := by
  rw [Nat.add_div_right time hpos]

/-- The next multiple is after the time, by at most the offset. -/
theorem baseTimeOk_nextMultiple (hpos : 0 < cycleTime) :
    BaseTimeOk time cycleTime
      ((time + 100000 * cycleTime) / (100000 * cycleTime) * (100000 * cycleTime)) := by
  have hoffset : 0 < 100000 * cycleTime := by omega
  rw [nextMultiple hoffset]
  refine ⟨?_,?_,?_⟩
  · exact Nat.lt_mul_of_div_lt (Nat.lt_succ_self _) hoffset
  · rw [Nat.succ_mul]
    exact Nat.add_le_add_right (Nat.div_mul_le_self time _) _
  · exact Dvd.dvd.mul_left (Dvd.intro_left _ rfl) _

/-- It is the first one. -/
theorem nextMultiple_le {m : ℕ} (hpos : 0 < offset) (hdvd : offset ∣ m) (hlt : time < m) :
    (time + offset) / offset * offset ≤ m := by
  obtain ⟨k,rfl⟩ := hdvd
  rw [nextMultiple hpos,Nat.mul_comm offset k]
  refine Nat.mul_le_mul_right _ ?_
  exact Nat.div_lt_of_lt_mul (by rw [Nat.mul_comm]; rwa [Nat.mul_comm] at hlt)

/-- The clock reads less than `2 ^ 63`. -/
theorem getAdminBaseTime_eq_some {ts time : BitVec 64} (h : getAdminBaseTime ts = some time) :
    time = ts ∧ time.toNat < 2 ^ 63 := by
  unfold getAdminBaseTime at h
  split_ifs at h with hmsb
  cases h
  refine ⟨rfl,?_⟩
  rw [BitVec.msb_eq_decide,decide_eq_true_eq] at hmsb
  omega

/-- The delay of a cycle time that can be written does not overflow. -/
theorem toNat_offset {c : BitVec 64} (hlt : c.toNat / 1000 < 2 ^ 32) :
    (adminDelayOffsetFactor * c).toNat = 100000 * c.toNat ∧ 100000 * c.toNat < 2 ^ 63 := by
  have hfactor : adminDelayOffsetFactor.toNat = 100000 := rfl
  have hbound : 100000 * c.toNat < 2 ^ 63 := by omega
  rw [BitVec.toNat_mul,hfactor,Nat.mod_eq_of_lt (by omega)]
  exact ⟨rfl,hbound⟩

/-- Rounding up does not overflow either. -/
theorem toNat_nextMultiple {t o : BitVec 64} (ht : t.toNat < 2 ^ 63) (ho : o.toNat < 2 ^ 63) :
    ((t + o) / o * o).toNat = (t.toNat + o.toNat) / o.toNat * o.toNat := by
  have hsum : (t + o).toNat = t.toNat + o.toNat := by
    rw [BitVec.toNat_add,Nat.mod_eq_of_lt (by omega)]
  have hle : (t.toNat + o.toNat) / o.toNat * o.toNat ≤ t.toNat + o.toNat :=
    Nat.div_mul_le_self _ _
  rw [BitVec.toNat_mul,BitVec.toNat_udiv,hsum,Nat.mod_eq_of_lt (by omega)]

end BaseTime

section Schedule

variable {env : Env} {list : ControlList} {time : BitVec 64}

/-- The list, with the base time that `EthFwEstDemo_runSchedule` sets. -/
def scheduled (time : BitVec 64) (list : ControlList) : ControlList :=
  let offset := adminDelayOffsetFactor * list.cycleTime
  { list with baseTime := (time + offset) / offset * offset }

/-- A failure before the items are written leaves nothing to be wrong. -/
theorem programmed_of_not_started (h : ¬ (env.openDB = 0 ∧ env.setCommonParam = 0)) :
    Programmed env list := by
  unfold Programmed runSchedule
  by_cases hopen : env.openDB = 0
  · have hset : env.setCommonParam ≠ 0 := fun hset => h ⟨hopen,hset⟩
    rw [if_neg (not_not_intro hopen),if_pos hset]
    exact ⟨_,rfl,fun items hitems => by cases hitems⟩
  · rw [if_pos hopen]
    exact ⟨_,rfl,fun items hitems => by cases hitems⟩

/-- Where the clock cannot be read the base time given is written. -/
theorem programmed_iff_of_no_time (hopen : env.openDB = 0) (hset : env.setCommonParam = 0)
    (hts : getAdminBaseTime env.ts = none) :
    Programmed env list ↔ ItemsOk list (setAdminControlList list) := by
  unfold Programmed runSchedule
  rw [if_neg (not_not_intro hopen),if_neg (not_not_intro hset),hts]
  constructor
  · rintro ⟨r,hr,hitems⟩
    cases hr
    exact (hitems _ rfl).2
  · intro hok
    refine ⟨_,rfl,?_⟩
    intro items hitems
    cases hitems
    refine ⟨?_,hok⟩
    intro time htime
    cases htime

/-- A delay of zero divides by zero. -/
theorem not_programmed_of_zero (hopen : env.openDB = 0) (hset : env.setCommonParam = 0)
    (hts : getAdminBaseTime env.ts = some time)
    (hzero : adminDelayOffsetFactor * list.cycleTime = 0) :
    ¬ Programmed env list := by
  unfold Programmed runSchedule
  rw [if_neg (not_not_intro hopen),if_neg (not_not_intro hset),hts]
  dsimp only
  rw [if_pos hzero]
  rintro ⟨r,hr,-⟩
  cases hr

/-- Any other delay sets the base time that is written. -/
theorem programmed_iff_of_time (hopen : env.openDB = 0) (hset : env.setCommonParam = 0)
    (hts : getAdminBaseTime env.ts = some time)
    (hoffset : adminDelayOffsetFactor * list.cycleTime ≠ 0) :
    Programmed env list ↔
      (0 < list.cycleTime.toNat → BaseTimeOk time.toNat list.cycleTime.toNat
        (scheduled time list).baseTime.toNat) ∧
      ItemsOk (scheduled time list) (setAdminControlList (scheduled time list)) := by
  unfold Programmed runSchedule
  rw [if_neg (not_not_intro hopen),if_neg (not_not_intro hset),hts]
  dsimp only
  rw [if_neg hoffset]
  constructor
  · rintro ⟨r,hr,hitems⟩
    cases hr
    obtain ⟨hbase,hok⟩ := hitems _ rfl
    exact ⟨hbase time rfl,hok⟩
  · rintro ⟨hbase,hok⟩
    refine ⟨_,rfl,?_⟩
    intro items hitems
    cases hitems
    refine ⟨?_,hok⟩
    intro t ht
    cases ht
    exact hbase

/-- The base time of a cycle time that can be written. -/
theorem toNat_baseTime_scheduled (htime : time.toNat < 2 ^ 63)
    (hlt : list.cycleTime.toNat / 1000 < 2 ^ 32) :
    (scheduled time list).baseTime.toNat =
      (time.toNat + 100000 * list.cycleTime.toNat) / (100000 * list.cycleTime.toNat) *
        (100000 * list.cycleTime.toNat) := by
  obtain ⟨hoffset,hbound⟩ := toNat_offset hlt
  unfold scheduled
  dsimp only
  rw [toNat_nextMultiple htime (by omega),hoffset]

/-- With the time read the items are right exactly for a list that can be
represented. -/
theorem programmed_iff_of_clock (hopen : env.openDB = 0) (hset : env.setCommonParam = 0)
    (hts : getAdminBaseTime env.ts = some time) :
    Programmed env list ↔ Representable env.ts list := by
  obtain ⟨-,htime⟩ := getAdminBaseTime_eq_some hts
  unfold Representable
  rw [hts]
  dsimp only
  by_cases hzero : adminDelayOffsetFactor * list.cycleTime = 0
  · refine iff_of_false (not_programmed_of_zero hopen hset hts hzero) ?_
    rintro ⟨hcycle,hpos,-⟩
    obtain ⟨hoffset,-⟩ := toNat_offset (hcycle hpos).2
    rw [hzero] at hoffset
    have hnone : 100000 * list.cycleTime.toNat = 0 := hoffset.symm
    omega
  · have hpos : 0 < list.cycleTime.toNat := by
      refine Nat.pos_of_ne_zero fun hcycle => hzero ?_
      have hcycle : list.cycleTime = 0#64 := BitVec.eq_of_toNat_eq hcycle
      rw [hcycle]
      exact BitVec.mul_zero
    have hdelay : 0 < 100000 * list.cycleTime.toNat := by omega
    rw [programmed_iff_of_time hopen hset hts hzero,itemsOk_iff]
    constructor
    · rintro ⟨-,hbase,hcycle⟩
      have hcycle : 0 < list.cycleTime.toNat →
          1000 ∣ list.cycleTime.toNat ∧ list.cycleTime.toNat / 1000 < 2 ^ 32 := hcycle
      obtain ⟨hafter,-,-⟩ : BaseTimeOk time.toNat list.cycleTime.toNat _ :=
        baseTimeOk_nextMultiple hpos
      rw [toNat_baseTime_scheduled htime (hcycle hpos).2] at hbase
      exact ⟨hcycle,hpos,_,Dvd.intro_left _ rfl,hafter,hbase⟩
    · rintro ⟨hcycle,-,m,hdvd,hlt,hm⟩
      rw [toNat_baseTime_scheduled htime (hcycle hpos).2]
      exact ⟨fun _ => baseTimeOk_nextMultiple hpos,
        lt_of_le_of_lt (nextMultiple_le hdelay hdvd hlt) hm,hcycle⟩

end Schedule

end EthernetFirmware.EstSchedule
