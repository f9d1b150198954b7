import Mathlib.Data.Fin.Basic
import Mathlib.Data.List.TakeDrop
import EthernetFirmware.GuardedRuns
import EthernetFirmware.RemoteConfig

/-!
# Timestamp ring of the client

Every hardware push notification writes a pair of system time and remote
time into a table of tuples. The slot written is the counter modulo the
table's size; with the global time counter the system time is that of the
tuple before, and the tuple before is looked up with the counter itself.

Each notification leaves a record of the indices it used, so that accesses
beyond the table show. What memory holds there is the environment's choice.
-/

namespace EthernetFirmware.TimestampRing

open Function RemoteConfig GuardedRuns

/-- `TS_COUPLER_CLIENT_TUPLES_MAX_TUPLES`. -/
def tuplesMax : ℕ := 100

theorem tuplesMax_pos : 0 < tuplesMax := by
  unfold tuplesMax
  omega

/-- `TsCouplerClient_TimerType`. -/
inductive TimerType where
  /-- General purpose timer. -/
  | gptimer
  /-- Global time counter. -/
  | gtc
  deriving DecidableEq

/-- `TsCouplerClient_timeSyncTuple`. -/
structure TimeSyncTuple where
  /-- Local time. -/
  systemTime : BitVec 64
  /-- Remote time. -/
  phcTime : BitVec 64

/-- What one notification accessed and stored. -/
structure Access where
  /-- Slot written. -/
  slot : ℕ
  /-- Index of the tuple taken as predecessor. -/
  predecessor : Option ℕ
  /-- System time of the slot afterwards. -/
  systemTime : BitVec 64
  deriving DecidableEq

/-- The client's object with the accesses so far, oldest first. -/
structure Coupler where
  /-- Timer the system time comes from. -/
  timerType : TimerType
  /-- Push event exponent of the configuration. -/
  pushEvtVal : ℕ
  /-- Notifications received. -/
  tupleIndex : U32
  /-- The table. -/
  tuple : Fin tuplesMax → TimeSyncTuple
  /-- Value the global time counter was last set to. -/
  gtcCounter : Option (BitVec 64)
  /-- Accesses of the notifications so far. -/
  accesses : List Access

/-- A hardware push notification. -/
structure HwPush where
  /-- Remote time of the push. -/
  timestamp : BitVec 64
  /-- System times that memory holds at indices beyond the table. -/
  beyond : ℕ → BitVec 64

/-- Time between two pushes: `1U << pushEvtVal`, widened. -/
def pushPeriod (pushEvtVal : ℕ) : BitVec 64 := (1#32 <<< pushEvtVal).setWidth 64

/-- Slot of the table at a counter value. -/
def slotAt (i : ℕ) : Fin tuplesMax := ⟨i % tuplesMax,Nat.mod_lt i tuplesMax_pos⟩

/-- System time found at an index. -/
def systemTimeAt (s : Coupler) (e : HwPush) (i : ℕ) : BitVec 64 :=
  if h : i < tuplesMax then (s.tuple ⟨i,h⟩).systemTime else e.beyond i

/-- `TsCouplerClient_HwPushNotifyFxn`. -/
def hwPushNotifyFxn (s : Coupler) (e : HwPush) : Coupler :=
  let slot := slotAt s.tupleIndex.toNat
  let store (systemTime : BitVec 64) (predecessor : Option ℕ) : Coupler :=
    { s with
      tuple := update s.tuple slot ⟨systemTime,e.timestamp⟩
      tupleIndex := s.tupleIndex + 1
      accesses := s.accesses ++ [⟨slot,predecessor,systemTime⟩] }
  match s.timerType with
  | .gtc =>
    if s.tupleIndex = 0 then
      { store (pushPeriod s.pushEvtVal) none with gtcCounter := some (pushPeriod s.pushEvtVal) }
    else
      let prev := (s.tupleIndex - 1).toNat
      store (systemTimeAt s e prev + pushPeriod s.pushEvtVal) (some prev)
  | .gptimer => store (s.tuple slot).systemTime none

/-- A client whose tuple index is zero. -/
def start (timerType : TimerType) (pushEvtVal : ℕ) (tuple : Fin tuplesMax → TimeSyncTuple) :
    Coupler where
  timerType := timerType
  pushEvtVal := pushEvtVal
  tupleIndex := 0
  tuple := tuple
  gtcCounter := none
  accesses := []

/-- What the `k`-th notification should access and store: slot `k` of the
ring, after the tuple of notification `k - 1`, with `k + 1` periods. -/
def Consecutive (pushEvtVal k : ℕ) (a : Access) : Prop :=
  a.slot = k % tuplesMax ∧
  (a.predecessor = if k = 0 then none else some ((k - 1) % tuplesMax)) ∧
  a.systemTime.toNat = (k + 1) * 2 ^ pushEvtVal

/-- An access that stays inside the table. -/
def InBounds (a : Access) : Prop :=
  a.slot < tuplesMax ∧ ∀ i, a.predecessor = some i → i < tuplesMax

/-- All notifications so far stayed inside the table and kept the sequence. -/
def RingOk (s : Coupler) : Prop :=
  ∀ k a, s.accesses[k]? = some a → InBounds a ∧ Consecutive s.pushEvtVal k a

/-- Invariant while the predecessor index lies in the table. -/
structure Inv (pushEvtVal : ℕ) (s : Coupler) : Prop where
  /-- The global time counter is used. -/
  gtc : s.timerType = .gtc
  /-- The configuration stays. -/
  exponent : s.pushEvtVal = pushEvtVal
  /-- The counter counts the notifications. -/
  count : s.tupleIndex.toNat = s.accesses.length
  /-- Accesses so far are right. -/
  ringOk : RingOk s
  /-- The last tuple holds the time of its notification. -/
  last : ∀ k, s.accesses.length = k + 1 →
    (s.tuple (slotAt k)).systemTime.toNat = (k + 1) * 2 ^ pushEvtVal
  /-- The ring has wrapped at most once, and only just. -/
  short : s.accesses.length ≤ tuplesMax + 1

section Steps

variable {s : Coupler} {e : HwPush} {pushEvtVal : ℕ}

theorem toNat_pushPeriod (h : pushEvtVal < 32) :
    (pushPeriod pushEvtVal).toNat = 2 ^ pushEvtVal := by
  have hlt : 2 ^ pushEvtVal < 2 ^ 32 := Nat.pow_lt_pow_right (by omega) h
  unfold pushPeriod
  rw [BitVec.toNat_setWidth,BitVec.toNat_shiftLeft,Nat.shiftLeft_eq]
  have hone : (1#32).toNat = 1 := rfl
  rw [hone,Nat.one_mul,Nat.mod_eq_of_lt hlt]
  exact Nat.mod_eq_of_lt (hlt.trans (by omega))

/-- A notification adds one access. -/
theorem accesses_notify (s : Coupler) (e : HwPush) :
    ∃ a, (hwPushNotifyFxn s e).accesses = s.accesses ++ [a] := by
  unfold hwPushNotifyFxn
  dsimp only
  split
  · split_ifs
    · exact ⟨_,rfl⟩
    · exact ⟨_,rfl⟩
  · exact ⟨_,rfl⟩

/-- The first notification. -/
theorem notify_first (hgtc : s.timerType = .gtc) (h : s.tupleIndex = 0) :
    (hwPushNotifyFxn s e).accesses =
      s.accesses ++ [⟨0,none,pushPeriod s.pushEvtVal⟩] ∧
    ((hwPushNotifyFxn s e).tuple (slotAt 0)).systemTime = pushPeriod s.pushEvtVal := by
  unfold hwPushNotifyFxn
  rw [hgtc,h]
  dsimp only
  rw [if_pos rfl]
  refine ⟨rfl,?_⟩
  dsimp only
  exact congrArg TimeSyncTuple.systemTime (update_self (f := s.tuple) _ _)

/-- A later notification. -/
theorem notify_next (hgtc : s.timerType = .gtc) {k : ℕ} (hk : s.tupleIndex.toNat = k + 1) :
    (hwPushNotifyFxn s e).accesses =
      s.accesses ++
        [⟨(k + 1) % tuplesMax,some k,systemTimeAt s e k + pushPeriod s.pushEvtVal⟩] ∧
    ((hwPushNotifyFxn s e).tuple (slotAt (k + 1))).systemTime =
      systemTimeAt s e k + pushPeriod s.pushEvtVal := by
  have hne : s.tupleIndex ≠ 0 := by
    intro h
    rw [h] at hk
    simp at hk
  have hprev : (s.tupleIndex - 1).toNat = k := by
    have hlt := s.tupleIndex.isLt
    rw [BitVec.toNat_sub]
    simp only [BitVec.ofNat_eq_ofNat,BitVec.toNat_ofNat]
    omega
  unfold hwPushNotifyFxn
  rw [hgtc]
  dsimp only
  rw [if_neg hne,hprev,hk]
  refine ⟨rfl,?_⟩
  dsimp only
  exact congrArg TimeSyncTuple.systemTime (update_self (f := s.tuple) _ _)

/-- What a notification leaves in place. -/
theorem notify_rest (hgtc : s.timerType = .gtc) :
    (hwPushNotifyFxn s e).timerType = .gtc ∧
    (hwPushNotifyFxn s e).pushEvtVal = s.pushEvtVal ∧
    (hwPushNotifyFxn s e).tupleIndex = s.tupleIndex + 1 := by
  unfold hwPushNotifyFxn
  rw [hgtc]
  dsimp only
  split_ifs <;> exact ⟨rfl,rfl,rfl⟩

/-- The accesses of a longer run begin with those of a shorter one. -/
theorem accesses_prefix (s : Coupler) (es : List HwPush) :
    s.accesses <+: (run hwPushNotifyFxn s es).accesses := by
  induction es generalizing s with
  | nil => exact List.prefix_rfl
  | cons e es ih =>
    obtain ⟨a,ha⟩ := accesses_notify s e
    exact (ha ▸ List.prefix_append s.accesses [a]).trans (ih (hwPushNotifyFxn s e))

theorem length_accesses (s : Coupler) (es : List HwPush) :
    (run hwPushNotifyFxn s es).accesses.length = s.accesses.length + es.length := by
  induction es generalizing s with
  | nil => rfl
  | cons e es ih =>
    obtain ⟨a,ha⟩ := accesses_notify s e
    rw [run_cons,ih,ha,List.length_append,List.length_cons,List.length_cons,List.length_nil]
    omega

/-- One more right access keeps the sequence right. -/
theorem ringOk_append {a : Access} {t : Coupler} (h : RingOk s)
    (ht : t.accesses = s.accesses ++ [a]) (hexp : t.pushEvtVal = s.pushEvtVal)
    (ha : InBounds a ∧ Consecutive s.pushEvtVal s.accesses.length a) : RingOk t := by
  intro k b hb
  rw [ht] at hb
  rw [hexp]
  rcases Nat.lt_trichotomy k s.accesses.length with hk | hk | hk
  · rw [List.getElem?_append_left hk] at hb
    exact h k b hb
  · subst hk
    rw [List.getElem?_append_right le_rfl,Nat.sub_self] at hb
    cases hb
    exact ha
  · rw [List.getElem?_eq_none (by rw [List.length_append,List.length_singleton]; omega)] at hb
    cases hb

/-- The system time after the predecessor's, below the first wrap. -/
theorem toNat_next_systemTime (hexp : pushEvtVal < 32) (h : Inv pushEvtVal s) {j : ℕ}
    (hs : s.accesses.length = j + 1) (hj : j < tuplesMax) :
    (systemTimeAt s e j + pushPeriod s.pushEvtVal).toNat = (j + 1 + 1) * 2 ^ pushEvtVal := by
  have hperiod : (pushPeriod s.pushEvtVal).toNat = 2 ^ pushEvtVal := by
    rw [h.exponent]
    exact toNat_pushPeriod hexp
  have hpow : 2 ^ pushEvtVal < 2 ^ 32 := Nat.pow_lt_pow_right (by omega) hexp
  have hprev : (systemTimeAt s e j).toNat = (j + 1) * 2 ^ pushEvtVal := by
    have hslot : slotAt j = ⟨j,hj⟩ := Fin.ext (Nat.mod_eq_of_lt hj)
    unfold systemTimeAt
    rw [dif_pos hj,← hslot]
    exact h.last j hs
  have hfit : (j + 1) * 2 ^ pushEvtVal + 2 ^ pushEvtVal < 2 ^ 64 := by
    have hle : (j + 1) * 2 ^ pushEvtVal ≤ 100 * 2 ^ 32 := Nat.mul_le_mul hj hpow.le
    omega
  rw [BitVec.toNat_add,hprev,hperiod,Nat.mod_eq_of_lt hfit,Nat.succ_mul (j + 1)]

/-- Up to one notification after the first wrap the sequence is kept. -/
theorem inv_notify (hexp : pushEvtVal < 32) (h : Inv pushEvtVal s)
    (hshort : s.accesses.length ≤ tuplesMax) : Inv pushEvtVal (hwPushNotifyFxn s e) := by
  obtain ⟨hgtc,hexponent,hindex⟩ := notify_rest (e := e) h.gtc
  obtain ⟨a,ha⟩ := accesses_notify s e
  have hlen : (hwPushNotifyFxn s e).accesses.length = s.accesses.length + 1 := by
    rw [ha,List.length_append,List.length_singleton]
  have hcount : (hwPushNotifyFxn s e).tupleIndex.toNat = (hwPushNotifyFxn s e).accesses.length := by
    have hmax : s.accesses.length + 1 < 2 ^ 32 := by
      unfold tuplesMax at hshort
      omega
    rw [hindex,hlen,BitVec.toNat_add,h.count]
    exact Nat.mod_eq_of_lt hmax
  cases hs : s.accesses.length with
  | zero =>
    have hperiod : (pushPeriod s.pushEvtVal).toNat = 2 ^ pushEvtVal := by
      rw [h.exponent]
      exact toNat_pushPeriod hexp
    have hzero : s.tupleIndex = 0 := BitVec.eq_of_toNat_eq (by rw [h.count,hs]; rfl)
    obtain ⟨hacc,htuple⟩ := notify_first (e := e) h.gtc hzero
    refine ⟨hgtc,hexponent.trans h.exponent,hcount,?_,?_,by omega⟩
    · refine ringOk_append h.ringOk hacc hexponent ⟨⟨tuplesMax_pos,fun i hi => by cases hi⟩,?_⟩
      rw [hs,h.exponent]
      refine ⟨rfl,rfl,?_⟩
      rw [← h.exponent,hperiod,h.exponent,Nat.zero_add,Nat.one_mul]
    · intro k hk
      have hk0 : k = 0 := by omega
      subst hk0
      rw [htuple,hperiod,Nat.zero_add,Nat.one_mul]
  | succ j =>
    have hj : j < tuplesMax := by omega
    obtain ⟨hacc,htuple⟩ := notify_next (e := e) h.gtc (h.count.trans hs)
    have htime := toNat_next_systemTime (e := e) hexp h hs hj
    refine ⟨hgtc,hexponent.trans h.exponent,hcount,?_,?_,by omega⟩
    · refine ringOk_append h.ringOk hacc hexponent ⟨⟨Nat.mod_lt _ tuplesMax_pos,?_⟩,?_⟩
      · intro i hi
        cases hi
        exact hj
      · rw [hs,h.exponent]
        refine ⟨rfl,?_,?_⟩
        · rw [if_neg (Nat.succ_ne_zero j),Nat.add_sub_cancel,Nat.mod_eq_of_lt hj]
        · rw [← h.exponent,htime,h.exponent]
    · intro k hk
      have hkj : k = j + 1 := by omega
      subst hkj
      rw [htuple,htime]

theorem inv_start (tuple : Fin tuplesMax → TimeSyncTuple) :
    Inv pushEvtVal (start .gtc pushEvtVal tuple) :=
  ⟨rfl,rfl,rfl,fun _ _ h => (by cases h),fun _ h => (by cases h),Nat.zero_le _⟩

theorem inv_run (hexp : pushEvtVal < 32) (h : Inv pushEvtVal s) (es : List HwPush)
    (hshort : s.accesses.length + es.length ≤ tuplesMax + 1) :
    Inv pushEvtVal (run hwPushNotifyFxn s es) := by
  induction es generalizing s with
  | nil => exact h
  | cons e es ih =>
    obtain ⟨a,ha⟩ := accesses_notify s e
    rw [List.length_cons] at hshort
    refine ih (inv_notify hexp h (by omega)) ?_
    rw [ha,List.length_append,List.length_singleton]
    omega

/-- The second notification after the wrap takes a predecessor beyond the
table. -/
theorem not_ringOk_of_wrapped (h : Inv pushEvtVal s)
    (hlen : s.accesses.length = tuplesMax + 1) (es : List HwPush) :
    ¬ RingOk (run hwPushNotifyFxn s (e :: es)) := by
  intro hok
  obtain ⟨hacc,-⟩ := notify_next (e := e) h.gtc (h.count.trans hlen)
  have hlt : s.accesses.length < (hwPushNotifyFxn s e).accesses.length := by
    rw [hacc,List.length_append,List.length_singleton]
    omega
  have hlast : (hwPushNotifyFxn s e).accesses[s.accesses.length]? =
      some ⟨(tuplesMax + 1) % tuplesMax,some tuplesMax,
        systemTimeAt s e tuplesMax + pushPeriod s.pushEvtVal⟩ := by
    rw [hacc,List.getElem?_append_right le_rfl,Nat.sub_self]
    rfl
  obtain ⟨rest,hrest⟩ := accesses_prefix (hwPushNotifyFxn s e) es
  have hfinal : (run hwPushNotifyFxn s (e :: es)).accesses[s.accesses.length]? =
      some ⟨(tuplesMax + 1) % tuplesMax,some tuplesMax,
        systemTimeAt s e tuplesMax + pushPeriod s.pushEvtVal⟩ := by
    rw [run_cons,← hrest,List.getElem?_append_left hlt,hlast]
  exact Nat.lt_irrefl _ ((hok _ _ hfinal).1.2 tuplesMax rfl)

/-- A run of more notifications breaks the sequence. -/
theorem not_ringOk_of_long (hexp : pushEvtVal < 32) (tuple : Fin tuplesMax → TimeSyncTuple)
    (es : List HwPush) (hlong : tuplesMax + 1 < es.length) :
    ¬ RingOk (run hwPushNotifyFxn (start .gtc pushEvtVal tuple) es) := by
  intro hok
  have hlen : (es.take (tuplesMax + 1)).length = tuplesMax + 1 := by
    rw [List.length_take]
    omega
  have hinv : Inv pushEvtVal
      (run hwPushNotifyFxn (start .gtc pushEvtVal tuple) (es.take (tuplesMax + 1))) :=
    inv_run hexp (inv_start tuple) _ (by rw [hlen]; exact Nat.le_of_eq rfl)
  rw [← List.take_append_drop (tuplesMax + 1) es,run_append] at hok
  cases hdrop : es.drop (tuplesMax + 1) with
  | nil =>
    rw [List.drop_eq_nil_iff] at hdrop
    omega
  | cons e rest =>
    rw [hdrop] at hok
    refine not_ringOk_of_wrapped hinv ?_ rest hok
    rw [length_accesses,hlen]
    rfl

end Steps

/-- With the global time counter and an exponent below 32, all accesses of
the notifications received since the tuple index was zero are in bounds and
in sequence exactly when there are at most 101 of them. -/
theorem ring_consecutive_iff {pushEvtVal : ℕ} (hexp : pushEvtVal < 32)
    (tuple : Fin tuplesMax → TimeSyncTuple) (es : List HwPush) :
    RingOk (run hwPushNotifyFxn (start .gtc pushEvtVal tuple) es) ↔
      es.length ≤ tuplesMax + 1 := by
  constructor
  · intro hok
    by_contra hlong
    exact not_ringOk_of_long hexp tuple es (by omega) hok
  · intro hshort
    exact (inv_run hexp (inv_start tuple) es (by simpa [start] using hshort)).ringOk

/-- Notifications of pushes eight ticks apart. -/
def pushes (n : ℕ) : List HwPush :=
  (List.range n).map fun i => ⟨BitVec.ofNat 64 (8 * i),fun _ => 0⟩

@[simp] theorem length_pushes (n : ℕ) : (pushes n).length = n := by
  rw [pushes,List.length_map,List.length_range]

/-- The 101st notification is the first of the next turn of the table. -/
theorem ring_consecutive_iff_wrapped :
    RingOk (run hwPushNotifyFxn (start .gtc 3 fun _ => ⟨0,0⟩) (pushes 101)) := by
  refine (ring_consecutive_iff (by omega : 3 < 32) _ _).mpr ?_
  rw [length_pushes]
  unfold tuplesMax
  omega

/-- The 102nd notification takes its predecessor from beyond the table. -/
theorem predecessor_beyond_table :
    (pushes 102).length < 2 ^ 32 ∧
      ¬ RingOk (run hwPushNotifyFxn (start .gtc 3 fun _ => ⟨0,0⟩) (pushes 102)) := by
  rw [length_pushes]
  refine ⟨by omega,not_ringOk_of_long (by omega : 3 < 32) _ _ ?_⟩
  rw [length_pushes]
  unfold tuplesMax
  omega

end EthernetFirmware.TimestampRing
