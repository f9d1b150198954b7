import EthernetFirmware.RemoteConfig
import EthernetFirmware.SlotTables
import EthernetFirmware.GuardedRuns

/-!
# Object pools of the Sitara abstraction

Tasks, semaphores, clocks, events, mailboxes and message endpoints live in
static pools. A create marks a free slot under the mutex and constructs the
object there, a delete gives the slot back. The pools' mutexes are valid and
memory for callback arguments is to be had; where a check of this fails the
program stops. What the kernel does to an object is outside the model but
for the outcome of its construction.
-/

namespace EthernetFirmware.SitaraOsalPools

open Function GuardedRuns RemoteConfig SlotTables

/-- Kinds of objects. -/
inductive Kind where
  | task
  | semaphore
  | clock
  | event
  | mailbox
  | rpmsg
  deriving DecidableEq

/-- Slots of each pool: `ETHFW_OSAL_FREERTOS_MAX_TASK` and its siblings,
`ETHFW_IPC_FREERTOS_MAX_ENDPT`. -/
def maxCount : Kind → ℕ
  | .task => 15
  | .semaphore => 15
  | .clock => 5
  | .event => 5
  | .mailbox => 5
  | .rpmsg => 5

/-- Pool of `n` slots with its statistics. -/
structure Pool (n : ℕ) where
  /-- `used` of each slot. -/
  used : Fin n → Bool
  /-- `allocCnt`. -/
  allocCnt : ℕ
  /-- `peakCnt`. -/
  peakCnt : ℕ

variable {n : ℕ}

/-- Search for a slot that is not in use. -/
def findFree (p : Pool n) : Option (Fin n) := firstSlot (fun used => !used) p.used

/-- A counter of 32 bits goes up. -/
def countUp (allocCnt : ℕ) : ℕ := (allocCnt + 1) % 2 ^ 32

/-- A counter goes down unless it is zero. -/
def countDown (allocCnt : ℕ) : ℕ := if 0 < allocCnt then allocCnt - 1 else allocCnt

/-- `peakCnt` after a look at `allocCnt`. -/
def peak (peakCnt allocCnt : ℕ) : ℕ := if peakCnt < allocCnt then allocCnt else peakCnt

/-- What a create does under the mutex, with `index`, which is zero when the
search finds nothing. -/
def takeSlot [NeZero n] (p : Pool n) : Pool n × Fin n :=
  match findFree p with
  | some i =>
    (⟨update p.used i true,countUp p.allocCnt,peak p.peakCnt (countUp p.allocCnt)⟩,i)
  | none => (p,0)

/-- A slot is given back. -/
def giveBack (p : Pool n) (i : Fin n) : Pool n :=
  { p with used := update p.used i false, allocCnt := countDown p.allocCnt }

/-- The common create: the slot is given back when the construct fails. -/
def createObject [NeZero n] (p : Pool n) (constructed : Bool) : Pool n × Option (Fin n) :=
  let taken := takeSlot p
  if constructed then (taken.1,some taken.2) else (giveBack taken.1 taken.2,none)

/-- The create of a clock. The slot's first bytes, `used` among them, are
cleared before the construct, and a one-shot clock is not constructed. -/
def createClockObject [NeZero n] (p : Pool n) (runMode : U32) (constructed : Bool) :
    Pool n × Option (Fin n) :=
  let taken := takeSlot p
  let cleared : Pool n := { taken.1 with used := update taken.1.used taken.2 false }
  if runMode ≠ 0 ∧ constructed = true then (cleared,some taken.2)
  else (giveBack cleared taken.2,none)

/-- The create of a mailbox, whose own counter stays. -/
def createMailboxObject [NeZero n] (p : Pool n) (constructed : Bool) : Pool n × Option (Fin n) :=
  let taken : Pool n × Fin n :=
    match findFree p with
    | some i => (⟨update p.used i true,p.allocCnt,peak p.peakCnt p.allocCnt⟩,i)
    | none => (p,0)
  if constructed then (taken.1,some taken.2) else (giveBack taken.1 taken.2,none)

/-- `SystemP_SUCCESS`. -/
def systemSuccess : Status := 0

/-- `SystemP_FAILURE`. -/
def systemFailure : Status := -1

/-- Status of a delete that gives a slot back. -/
def deleteStatus (p : Pool n) : Status := if 0 < p.allocCnt then systemSuccess else systemFailure

instance (kind : Kind) : NeZero (maxCount kind) := ⟨by cases kind <;> decide⟩

/-- The pools, and the handles that are live. -/
structure State where
  /-- Pools. -/
  pool : (kind : Kind) → Pool (maxCount kind)
  /-- Slots of the live handles. -/
  live : (kind : Kind) → List (Fin (maxCount kind))

/-- `EthFwOsal_init` and `EthFwIpc_init`. -/
def init : State := ⟨fun _ => ⟨fun _ => false,0,0⟩,fun _ => []⟩

/-- A create leaves a pool and perhaps a handle. -/
def State.afterCreate (s : State) (kind : Kind)
    (r : Pool (maxCount kind) × Option (Fin (maxCount kind))) : State :=
  ⟨update s.pool kind r.1,update s.live kind (r.2.toList ++ s.live kind)⟩

/-- A delete leaves a pool and ends a handle. -/
def State.afterDelete (s : State) (kind : Kind) (p : Pool (maxCount kind))
    (handle : Fin (maxCount kind)) : State :=
  ⟨update s.pool kind p,update s.live kind ((s.live kind).erase handle)⟩

/-- What a create does on the pool of a kind, with the handle returned. -/
def createIn (s : State) (kind : Kind)
    (r : Pool (maxCount kind) × Option (Fin (maxCount kind))) :
    State × Option (Fin (maxCount kind)) :=
  (s.afterCreate kind r,r.2)

/-- The common delete on the pool of a kind. -/
def deleteIn (s : State) (kind : Kind) (handle : Fin (maxCount kind)) : State × Status :=
  (s.afterDelete kind (giveBack (s.pool kind) handle) handle,deleteStatus (s.pool kind))

/-- `EthFwOsal_createTask`. -/
def createTask (s : State) (constructed : Bool) : State × Option (Fin (maxCount .task)) :=
  createIn s .task (createObject (s.pool .task) constructed)

/-- `EthFwOsal_deleteTask`. The argument points to the caller's handle, and
`used` is cleared there instead of in the slot. -/
def deleteTask (s : State) (handle : Fin (maxCount .task)) : State × Status :=
  let p := s.pool .task
  (s.afterDelete .task { p with allocCnt := countDown p.allocCnt } handle,deleteStatus p)

/-- `EthFwOsal_createSemaphore`. -/
def createSemaphore (s : State) (constructed : Bool) :
    State × Option (Fin (maxCount .semaphore)) :=
  createIn s .semaphore (createObject (s.pool .semaphore) constructed)

/-- `EthFwOsal_deleteSemaphore`. -/
def deleteSemaphore (s : State) (semHandle : Fin (maxCount .semaphore)) : State × Status :=
  deleteIn s .semaphore semHandle

/-- `EthFwOsal_createClock`. -/
def createClock (s : State) (runMode : U32) (constructed : Bool) :
    State × Option (Fin (maxCount .clock)) :=
  createIn s .clock (createClockObject (s.pool .clock) runMode constructed)

/-- `EthFwOsal_deleteClock`. -/
def deleteClock (s : State) (clockHandle : Fin (maxCount .clock)) : State × Status :=
  (s.afterDelete .clock (s.pool .clock) clockHandle,systemSuccess)

/-- `EthFwOsal_createEvent`. -/
def createEvent (s : State) (constructed : Bool) : State × Option (Fin (maxCount .event)) :=
  createIn s .event (createObject (s.pool .event) constructed)

/-- `EthFwOsal_createMailbox`. A slot that is taken counts as an event. -/
def createMailbox (s : State) (constructed : Bool) :
    State × Option (Fin (maxCount .mailbox)) :=
  let events := s.pool .event
  let counted : Pool (maxCount .event) :=
    if (findFree (s.pool .mailbox)).isSome then
      { events with allocCnt := countUp events.allocCnt }
    else events
  createIn { s with pool := update s.pool .event counted } .mailbox
    (createMailboxObject (s.pool .mailbox) constructed)

/-- `EthFwOsal_deleteMailbox`, with the status of the kernel's delete. -/
def deleteMailbox (s : State) (handle : Fin (maxCount .mailbox)) (status : Status) :
    State × Status :=
  (s.afterDelete .mailbox (s.pool .mailbox) handle,status)

/-- `EthFwIpc_createRpmsg`. -/
def createRpmsg (s : State) (constructed : Bool) : State × Option (Fin (maxCount .rpmsg)) :=
  createIn s .rpmsg (createObject (s.pool .rpmsg) constructed)

/-- `EthFwIpc_deleteRpmsg`. -/
def deleteRpmsg (s : State) (rpmsgHandle : Fin (maxCount .rpmsg)) : State × Status :=
  deleteIn s .rpmsg rpmsgHandle

/-- Calls, with the outcome of the kernel's construct. There is no delete for
events. -/
inductive Call where
  | createTask (constructed : Bool)
  | deleteTask (handle : Fin (maxCount .task))
  | createSemaphore (constructed : Bool)
  | deleteSemaphore (semHandle : Fin (maxCount .semaphore))
  | createClock (runMode : U32) (constructed : Bool)
  | deleteClock (clockHandle : Fin (maxCount .clock))
  | createEvent (constructed : Bool)
  | createMailbox (constructed : Bool)
  | deleteMailbox (handle : Fin (maxCount .mailbox)) (status : Status)
  | createRpmsg (constructed : Bool)
  | deleteRpmsg (rpmsgHandle : Fin (maxCount .rpmsg))

/-- State after a call. A delete is only called with a live handle. -/
def step (s : State) : Call → State
  | .createTask constructed => (createTask s constructed).1
  | .deleteTask h => if h ∈ s.live .task then (deleteTask s h).1 else s
  | .createSemaphore constructed => (createSemaphore s constructed).1
  | .deleteSemaphore h => if h ∈ s.live .semaphore then (deleteSemaphore s h).1 else s
  | .createClock runMode constructed => (createClock s runMode constructed).1
  | .deleteClock h => if h ∈ s.live .clock then (deleteClock s h).1 else s
  | .createEvent constructed => (createEvent s constructed).1
  | .createMailbox constructed => (createMailbox s constructed).1
  | .deleteMailbox h status => if h ∈ s.live .mailbox then (deleteMailbox s h status).1 else s
  | .createRpmsg constructed => (createRpmsg s constructed).1
  | .deleteRpmsg h => if h ∈ s.live .rpmsg then (deleteRpmsg s h).1 else s

/-- Number of slots marked used. -/
def usedCount (p : Pool n) : ℕ := slotCount (fun used => used) p.used

/-- A pool agrees with the live handles of its kind. -/
structure PoolOk (p : Pool n) (live : List (Fin n)) : Prop where
  /-- No two live handles denote one slot. -/
  nodup : live.Nodup
  /-- A slot is marked used exactly when a live handle denotes it. -/
  used_iff : ∀ i, p.used i = true ↔ i ∈ live
  /-- The counter is the number of used slots. -/
  allocCnt : p.allocCnt = usedCount p

/-- All pools agree with the live handles. -/
def PoolsOk (s : State) : Prop := ∀ kind, PoolOk (s.pool kind) (s.live kind)

/-- What a create owes. -/
structure CreateOk (s : State) (kind : Kind) (r : State × Option (Fin (maxCount kind))) :
    Prop where
  /-- With all slots in use it fails and changes nothing. -/
  full : (∀ i, (s.pool kind).used i = true) → r.2 = none ∧ r.1 = s
  /-- When it fails it leaves the pool as it was. -/
  failed : r.2 = none →
    (r.1.pool kind).used = (s.pool kind).used ∧ (r.1.pool kind).allocCnt = (s.pool kind).allocCnt

/-- What a delete owes: its own slot becomes free, the other slots and the
other pools stay. -/
structure DeleteOk (s : State) (kind : Kind) (handle : Fin (maxCount kind)) (s' : State) :
    Prop where
  /-- The pool's slots. -/
  used : (s'.pool kind).used = update (s.pool kind).used handle false
  /-- The other pools. -/
  others : ∀ other, other ≠ kind → s'.pool other = s.pool other

/-- What a call owes. -/
def CallOk (s : State) : Call → Prop
  | .createTask constructed => CreateOk s .task (createTask s constructed)
  | .deleteTask h => h ∈ s.live .task → DeleteOk s .task h (deleteTask s h).1
  | .createSemaphore constructed => CreateOk s .semaphore (createSemaphore s constructed)
  | .deleteSemaphore h =>
    h ∈ s.live .semaphore → DeleteOk s .semaphore h (deleteSemaphore s h).1
  | .createClock runMode constructed => CreateOk s .clock (createClock s runMode constructed)
  | .deleteClock h => h ∈ s.live .clock → DeleteOk s .clock h (deleteClock s h).1
  | .createEvent constructed => CreateOk s .event (createEvent s constructed)
  | .createMailbox constructed => CreateOk s .mailbox (createMailbox s constructed)
  | .deleteMailbox h status =>
    h ∈ s.live .mailbox → DeleteOk s .mailbox h (deleteMailbox s h status).1
  | .createRpmsg constructed => CreateOk s .rpmsg (createRpmsg s constructed)
  | .deleteRpmsg h => h ∈ s.live .rpmsg → DeleteOk s .rpmsg h (deleteRpmsg s h).1

/-- Some slot is not in use. -/
def HasFree (s : State) (kind : Kind) : Prop := ∃ i, (s.pool kind).used i = false

/-- The condition on the calls: a create finds a free slot; clocks are not
constructed and mailboxes not created; semaphores and endpoints only are
deleted. -/
def Regular (s : State) : Call → Prop
  | .createTask _ => HasFree s .task
  | .deleteTask h => h ∉ s.live .task
  | .createSemaphore _ => HasFree s .semaphore
  | .deleteSemaphore _ => True
  | .createClock runMode constructed => HasFree s .clock ∧ ¬ (runMode ≠ 0 ∧ constructed = true)
  | .deleteClock h => h ∉ s.live .clock
  | .createEvent _ => HasFree s .event
  | .createMailbox _ => False
  | .deleteMailbox h _ => h ∉ s.live .mailbox
  | .createRpmsg _ => HasFree s .rpmsg
  | .deleteRpmsg _ => True

/-- What a create owes to its pool and the live handles. -/
structure ObjectOk (p : Pool n) (live : List (Fin n)) (r : Pool n × Option (Fin n)) : Prop where
  /-- The pool stays in order. -/
  pool : PoolOk r.1 (r.2.toList ++ live)
  /-- With all slots in use nothing is handed out and nothing changes. -/
  full : (∀ i, p.used i = true) → r.2 = none ∧ r.1 = p
  /-- A failed create leaves slots and counter as they were. -/
  failed : r.2 = none → r.1.used = p.used ∧ r.1.allocCnt = p.allocCnt

section Pools

variable {p : Pool n} {live : List (Fin n)} {i : Fin n}

theorem findFree_eq_some (h : ∃ i, p.used i = false) :
    ∃ i, findFree p = some i ∧ p.used i = false := by
  cases hfind : findFree p with
  | none =>
    obtain ⟨i,hi⟩ := h
    have hused := firstSlot_eq_none_iff.mp hfind i
    rw [hi] at hused
    cases hused
  | some i => exact ⟨i,rfl,by simpa using (firstSlot_eq_some_iff.mp hfind).1⟩

theorem findFree_eq_none (h : ∀ i, p.used i = true) : findFree p = none :=
  firstSlot_eq_none_iff.mpr fun i => by simp [h i]

theorem countDown_countUp {k : ℕ} (h : k + 1 < 2 ^ 32) : countDown (countUp k) = k := by
  unfold countUp countDown
  rw [Nat.mod_eq_of_lt h]
  simp

/-- A pool has a free slot as soon as its counter says so. -/
theorem PoolOk.allocCnt_lt (h : PoolOk p live) (hi : p.used i = false) : p.allocCnt < n := by
  rw [h.allocCnt]
  exact slotCount_lt_iff.mpr ⟨i,hi⟩

/-- A free slot is taken. -/
theorem PoolOk.take (h : PoolOk p live) (hn : n < 2 ^ 32) (hi : p.used i = false)
    (peakCnt : ℕ) : PoolOk ⟨update p.used i true,countUp p.allocCnt,peakCnt⟩ (i :: live) := by
  have hnot : i ∉ live := fun hmem => by simp [(h.used_iff i).mpr hmem] at hi
  have hlt := h.allocCnt_lt hi
  constructor
  · exact List.nodup_cons.mpr ⟨hnot,h.nodup⟩
  · intro j
    by_cases hj : j = i
    · simp [hj]
    · simp [hj,h.used_iff j]
  · unfold countUp usedCount
    rw [Nat.mod_eq_of_lt (by omega),slotCount_update_gain hi rfl,h.allocCnt]
    rfl

theorem giveBack_used_self (p : Pool n) (i : Fin n) : (giveBack p i).used i = false := by
  simp [giveBack]

/-- The slot of a live handle is given back. -/
theorem PoolOk.giveBack (h : PoolOk p live) (hi : i ∈ live) :
    PoolOk (giveBack p i) (live.erase i) := by
  have hused : p.used i = true := (h.used_iff i).mpr hi
  have hcount : slotCount (fun used => used) (update p.used i false) + 1 = p.allocCnt := by
    rw [h.allocCnt]
    exact slotCount_update_loss hused rfl
  constructor
  · exact h.nodup.erase i
  · intro j
    rw [h.nodup.mem_erase_iff]
    by_cases hj : j = i
    · simp [SitaraOsalPools.giveBack,hj]
    · simp [SitaraOsalPools.giveBack,hj,h.used_iff j]
  · unfold SitaraOsalPools.giveBack usedCount countDown
    rw [if_pos (by omega)]
    exact Nat.eq_sub_of_add_eq hcount |>.symm

/-- With a free slot nothing is owed to a full pool. -/
theorem not_full {P : Prop} (h : ∃ i, p.used i = false) (hfull : ∀ i, p.used i = true) : P := by
  obtain ⟨i,hi⟩ := h
  rw [hfull i] at hi
  cases hi

/-- Only slots and counter matter. -/
theorem PoolOk.congr {q : Pool n} (h : PoolOk p live) (hused : q.used = p.used)
    (hcount : q.allocCnt = p.allocCnt) : PoolOk q live := by
  refine ⟨h.nodup,?_,?_⟩
  · rw [hused]
    exact h.used_iff
  · unfold usedCount
    rw [hused,hcount]
    exact h.allocCnt

/-- A create that fails and leaves slots and counter as they were does what
it owes. -/
theorem ObjectOk.of_same {q : Pool n} (h : PoolOk p live) (hfree : ∃ i, p.used i = false)
    (hused : q.used = p.used) (hcount : q.allocCnt = p.allocCnt) : ObjectOk p live (q,none) :=
  ⟨h.congr hused hcount,not_full hfree,fun _ => ⟨hused,hcount⟩⟩

variable [NeZero n]

theorem takeSlot_of_free (hfind : findFree p = some i) :
    takeSlot p =
      (⟨update p.used i true,countUp p.allocCnt,peak p.peakCnt (countUp p.allocCnt)⟩,i) := by
  unfold takeSlot
  rw [hfind]

theorem takeSlot_of_full (h : ∀ i, p.used i = true) : takeSlot p = (p,0) := by
  unfold takeSlot
  rw [findFree_eq_none h]

/-- A create that clears the first slot of a full pool must find a free
slot. -/
theorem ObjectOk.hasFree {r : Pool n × Option (Fin n)} (hok : ObjectOk p live r)
    (hclear : (∀ i, p.used i = true) → r.2 = none → r.1.used 0 = false) :
    ∃ i, p.used i = false := by
  by_contra hfull
  have hall : ∀ i, p.used i = true := by
    intro i
    by_contra hi
    exact hfull ⟨i,by simpa using hi⟩
  obtain ⟨hnone,hsame⟩ := hok.full hall
  have hcleared := hclear hall hnone
  rw [hsame,hall] at hcleared
  cases hcleared

/-- The common create does what it owes exactly when a slot is free. -/
theorem createObject_iff (h : PoolOk p live) (hn : n < 2 ^ 32) (constructed : Bool) :
    ObjectOk p live (createObject p constructed) ↔ ∃ i, p.used i = false := by
  constructor
  · intro hok
    refine hok.hasFree fun hfull hnone => ?_
    unfold createObject at hnone ⊢
    rw [takeSlot_of_full hfull] at hnone ⊢
    cases constructed with
    | true => cases hnone
    | false => exact giveBack_used_self ..
  · intro hfree
    obtain ⟨i,hfind,hi⟩ := findFree_eq_some hfree
    have hlt := h.allocCnt_lt hi
    unfold createObject
    rw [takeSlot_of_free hfind]
    cases constructed with
    | true => exact ⟨h.take hn hi _,not_full hfree,fun hnone => by cases hnone⟩
    | false =>
      apply ObjectOk.of_same h hfree
      · show update (update p.used i true) i false = p.used
        rw [update_idem,← hi,update_eq_self]
      · exact countDown_countUp (by omega)

/-- A clock's create does what it owes exactly when a slot is free and the
clock is not constructed. -/
theorem createClockObject_iff (h : PoolOk p live) (hn : n < 2 ^ 32) (runMode : U32)
    (constructed : Bool) :
    ObjectOk p live (createClockObject p runMode constructed) ↔
      (∃ i, p.used i = false) ∧ ¬ (runMode ≠ 0 ∧ constructed = true) := by
  unfold createClockObject
  by_cases hcond : runMode ≠ 0 ∧ constructed = true
  · rw [if_pos hcond]
    constructor
    · intro hok
      -- the slot handed out is not marked
      have hmem := (hok.pool.used_iff (takeSlot p).2).mpr (List.mem_append_left _ (by simp))
      simp at hmem
    · rintro ⟨-,hno⟩
      exact absurd hcond hno
  · rw [if_neg hcond]
    constructor
    · intro hok
      refine ⟨hok.hasFree fun hfull _ => ?_,hcond⟩
      rw [takeSlot_of_full hfull]
      exact giveBack_used_self ..
    · rintro ⟨hfree,-⟩
      obtain ⟨i,hfind,hi⟩ := findFree_eq_some hfree
      have hlt := h.allocCnt_lt hi
      rw [takeSlot_of_free hfind]
      apply ObjectOk.of_same h hfree
      · show update (update (update p.used i true) i false) i false = p.used
        rw [update_idem,update_idem,← hi,update_eq_self]
      · exact countDown_countUp (by omega)

/-- A mailbox is created without being counted. -/
theorem createMailboxObject_some (h : PoolOk p live) :
    ¬ ObjectOk p live (createMailboxObject p true) := by
  intro hok
  have hfree := hok.hasFree fun _ hnone => by
    unfold createMailboxObject at hnone
    cases hnone
  obtain ⟨i,hfind,hi⟩ := findFree_eq_some hfree
  have hcount := hok.pool.allocCnt
  simp only [createMailboxObject,hfind,if_true,usedCount] at hcount
  rw [slotCount_update_gain hi rfl,h.allocCnt] at hcount
  unfold usedCount at hcount
  omega

/-- A mailbox's create that fails still needs a free slot. -/
theorem createMailboxObject_none (hok : ObjectOk p live (createMailboxObject p false)) :
    ∃ i, p.used i = false := by
  refine hok.hasFree fun hfull _ => ?_
  unfold createMailboxObject
  rw [findFree_eq_none hfull]
  exact giveBack_used_self ..

end Pools

section Calls

variable {s : State} {kind : Kind} {handle : Fin (maxCount kind)}
  {r : Pool (maxCount kind) × Option (Fin (maxCount kind))}

theorem maxCount_lt (kind : Kind) : maxCount kind < 2 ^ 32 := by
  cases kind <;> decide

@[simp] theorem afterCreate_pool_self : (s.afterCreate kind r).pool kind = r.1 := update_self ..

@[simp] theorem afterCreate_live_self :
    (s.afterCreate kind r).live kind = r.2.toList ++ s.live kind := update_self ..

theorem poolsOk_init : PoolsOk init := by
  intro kind
  refine ⟨List.nodup_nil,fun i => by simp [init],?_⟩
  exact (slotCount_eq_zero_iff.mpr fun _ => rfl).symm

theorem PoolsOk.afterCreate (h : PoolsOk s) (hr : PoolOk r.1 (r.2.toList ++ s.live kind)) :
    PoolsOk (s.afterCreate kind r) := by
  intro other
  by_cases hother : other = kind
  · subst hother
    rw [afterCreate_pool_self,afterCreate_live_self]
    exact hr
  · unfold State.afterCreate
    simpa [hother] using h other

theorem PoolsOk.afterDelete {p : Pool (maxCount kind)} (h : PoolsOk s)
    (hp : PoolOk p ((s.live kind).erase handle)) : PoolsOk (s.afterDelete kind p handle) := by
  intro other
  unfold State.afterDelete
  by_cases hother : other = kind
  · subst hother
    simpa using hp
  · simpa [hother] using h other

/-- What a create owes, seen on its pool. Other pools may have changed
before. -/
theorem CreateOk.objectOk {s' : State} (hok : CreateOk s kind (createIn s' kind r))
    (hpools : PoolsOk (createIn s' kind r).1) (hlive : s'.live kind = s.live kind) :
    ObjectOk (s.pool kind) (s.live kind) r := by
  have hself : (createIn s' kind r).1.pool kind = r.1 := afterCreate_pool_self
  refine ⟨?_,fun hall => ?_,fun hnone => ?_⟩
  · have hafter := hpools kind
    unfold createIn at hafter
    rwa [afterCreate_pool_self,afterCreate_live_self,hlive] at hafter
  · obtain ⟨hnone,hsame⟩ := hok.full hall
    refine ⟨hnone,?_⟩
    calc r.1 = (createIn s' kind r).1.pool kind := hself.symm
      _ = s.pool kind := by rw [hsame]
  · have hsame := hok.failed hnone
    rwa [hself] at hsame

/-- A create does what it owes exactly when it does so on its pool. -/
theorem createIn_iff (h : PoolsOk s) :
    PoolsOk (createIn s kind r).1 ∧ CreateOk s kind (createIn s kind r) ↔
      ObjectOk (s.pool kind) (s.live kind) r := by
  constructor
  · rintro ⟨hpools,hok⟩
    exact hok.objectOk hpools rfl
  · intro hok
    refine ⟨h.afterCreate hok.pool,fun hall => ?_,fun hnone => ?_⟩
    · obtain ⟨hnone,hsame⟩ := hok.full hall
      refine ⟨hnone,?_⟩
      unfold createIn State.afterCreate
      rw [hnone,hsame,update_eq_self,Option.toList_none,List.nil_append,update_eq_self]
    · unfold createIn
      rw [afterCreate_pool_self]
      exact hok.failed hnone

/-- The common create does what it owes exactly when a slot is free. -/
theorem createIn_object_iff (h : PoolsOk s) (kind : Kind) (constructed : Bool) :
    PoolsOk (createIn s kind (createObject (s.pool kind) constructed)).1 ∧
        CreateOk s kind (createIn s kind (createObject (s.pool kind) constructed)) ↔
      HasFree s kind :=
  (createIn_iff h).trans (createObject_iff (h kind) (maxCount_lt kind) constructed)

/-- A mailbox's create never does what it owes. -/
theorem createMailbox_not_ok (h : PoolsOk s) (constructed : Bool) :
    ¬ (PoolsOk (createMailbox s constructed).1 ∧
      CreateOk s .mailbox (createMailbox s constructed)) := by
  rintro ⟨hpools,hok⟩
  have hobject : ObjectOk (s.pool .mailbox) (s.live .mailbox)
      (createMailboxObject (s.pool .mailbox) constructed) :=
    hok.objectOk hpools rfl
  cases constructed with
  | true => exact createMailboxObject_some (h .mailbox) hobject
  | false =>
    -- the event that is counted is none
    obtain ⟨i,hfind,-⟩ := findFree_eq_some (createMailboxObject_none hobject)
    have hevents := (hpools .event).allocCnt
    have hbefore := (h .event).allocCnt
    have hle : usedCount (s.pool .event) ≤ maxCount .event := slotCount_le ..
    have hmax := maxCount_lt .event
    simp [createMailbox,createIn,State.afterCreate,hfind,usedCount,countUp] at hevents
    unfold usedCount at hbefore hle
    omega

theorem afterDelete_pool_self {p : Pool (maxCount kind)} :
    (s.afterDelete kind p handle).pool kind = p := update_self ..

/-- The common delete gives back the slot of a live handle. -/
theorem deleteIn_ok (h : PoolsOk s) (hlive : handle ∈ s.live kind) :
    PoolsOk (deleteIn s kind handle).1 ∧ DeleteOk s kind handle (deleteIn s kind handle).1 := by
  refine ⟨h.afterDelete ((h kind).giveBack hlive),?_,fun other hother => ?_⟩
  · unfold deleteIn
    rw [afterDelete_pool_self]
    rfl
  · exact update_of_ne hother ..

/-- A delete that leaves the slots alone frees nothing. -/
theorem not_deleteOk (h : PoolsOk s) (hlive : handle ∈ s.live kind) {p : Pool (maxCount kind)}
    (hp : p.used = (s.pool kind).used) :
    ¬ DeleteOk s kind handle (s.afterDelete kind p handle) := by
  intro hok
  have hused := hok.used
  rw [afterDelete_pool_self,hp] at hused
  have hslot := congrFun hused handle
  rw [update_self,((h kind).used_iff handle).mpr hlive] at hslot
  cases hslot

/-- A delete that gives back the slot does what it owes. -/
theorem step_deleteIn (h : PoolsOk s) :
    (PoolsOk (if handle ∈ s.live kind then (deleteIn s kind handle).1 else s) ∧
      (handle ∈ s.live kind → DeleteOk s kind handle (deleteIn s kind handle).1)) ↔ True := by
  refine iff_true_intro ⟨?_,fun hlive => (deleteIn_ok h hlive).2⟩
  split
  · next hlive => exact (deleteIn_ok h hlive).1
  · exact h

/-- A delete that leaves the slots alone must not be called. -/
theorem step_deleteNone (h : PoolsOk s) {p : Pool (maxCount kind)}
    (hp : p.used = (s.pool kind).used) :
    (PoolsOk (if handle ∈ s.live kind then s.afterDelete kind p handle else s) ∧
      (handle ∈ s.live kind → DeleteOk s kind handle (s.afterDelete kind p handle))) ↔
    handle ∉ s.live kind := by
  constructor
  · rintro ⟨-,hok⟩ hlive
    exact not_deleteOk h hlive hp (hok hlive)
  · intro hlive
    rw [if_neg hlive]
    exact ⟨h,fun hmem => absurd hmem hlive⟩

/-- A call does what it owes exactly when it is regular. -/
theorem callOk_iff (h : PoolsOk s) (call : Call) :
    PoolsOk (step s call) ∧ CallOk s call ↔ Regular s call := by
  cases call with
  | createTask constructed => exact createIn_object_iff h .task constructed
  | deleteTask handle => exact step_deleteNone h rfl
  | createSemaphore constructed => exact createIn_object_iff h .semaphore constructed
  | deleteSemaphore handle => exact step_deleteIn h
  | createClock runMode constructed =>
    exact (createIn_iff h).trans
      (createClockObject_iff (h .clock) (maxCount_lt .clock) runMode constructed)
  | deleteClock handle => exact step_deleteNone h rfl
  | createEvent constructed => exact createIn_object_iff h .event constructed
  | createMailbox constructed => exact iff_of_false (createMailbox_not_ok h constructed) id
  | deleteMailbox handle status => exact step_deleteNone h rfl
  | createRpmsg constructed => exact createIn_object_iff h .rpmsg constructed
  | deleteRpmsg handle => exact step_deleteIn h

end Calls

/-- Along every run the pools agree with the live handles and every call does
what it owes exactly when creates find free slots, clocks are not constructed,
mailboxes are not created, and only semaphores and endpoints are deleted. -/
theorem poolsOk_iff_regular (calls : List Call) :
    Along step PoolsOk init calls ∧ Guarded step CallOk init calls ↔
      Guarded step Regular init calls :=
  along_and_guarded_iff (fun _ h => h) (fun _ call h hr => ((callOk_iff h call).mpr hr).1)
    (fun _ call h => callOk_iff h call) poolsOk_init

/-- The sixth event gets the slot of the first one. -/
theorem event_handed_out_twice :
    ¬ ((run step init (List.replicate 6 (.createEvent true))).live .event).Nodup := by
  decide

end EthernetFirmware.SitaraOsalPools
