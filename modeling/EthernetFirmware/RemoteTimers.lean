import EthernetFirmware.GuardedRuns
import EthernetFirmware.RemoteConfig
import Mathlib.Data.List.FinRange

/-!
# Remote timers

Hardware time-stamp pushes of remote cores: the server maps a push to the
core that registered it, keeps a mask of the cores to notify, and a task
forwards the pending pushes. The number of pushes, their index in the map
and the number of cores belong to the driver and the platform, and so do
the outcomes of every driver, router and IPC call. An index outside the
map has no cell to change.
-/

namespace EthernetFirmware.RemoteTimers

open BitMasks GuardedRuns RemoteConfig

/-- Time-sync constants of the driver and of the platform. -/
structure Cpts where
  /-- `CPSW_CPTS_HWPUSH_COUNT_MAX`. -/
  countMax : ℕ
  /-- `CPSW_CPTS_HWPUSH_NORM`, the index of a push number. -/
  norm : U8 → ℕ
  /-- `IPC_MAX_PROCS`. -/
  procs : ℕ
  /-- Every push is a bit of the event word. -/
  countMax_le : countMax ≤ 32
  /-- Every core is a bit of the notify mask. -/
  procs_le : procs ≤ 32
  /-- Only numbers up to the count have an index in the map. -/
  norm_le : ∀ n, norm n < countMax → n.toNat ≤ countMax

variable {d : Cpts}

/-- The notify service object and the state of its task. -/
structure NotifyService (d : Cpts) where
  /-- Core that each push is forwarded to; `none` is `IPC_MAX_PROCS`. -/
  hwPush2CoreIdMap : Fin d.countMax → Option (Fin d.procs)
  /-- Cores to notify. -/
  dstProcMask : U32
  /-- The task's status, kept from round to round. -/
  rtnVal : Status
  /-- The task got a driver handle when it started. -/
  hEnet : Bool

/-- `CpswProxyServer_initNotifyServiceEp` and the start of its task. -/
def initNotifyServiceEp (d : Cpts) (rtnVal : Status) (hEnet : Bool) : NotifyService d :=
  ⟨fun _ => none,0#32,rtnVal,hEnet⟩

/-- Outcomes of the two calls that configure a push. -/
structure SubSteps where
  /-- Registering or unregistering the driver callback. -/
  ioctl : Status
  /-- Setting the time-sync router. -/
  tsr : Status

/-- Status after both calls: the second is made when the first succeeds. -/
def SubSteps.status (r : SubSteps) : Status := if r.ioctl = sok then r.tsr else r.ioctl

/-- Number check of a registration. -/
def registerCheck (d : Cpts) (hwPushNum : U8) : Status :=
  if hwPushNum.toNat > d.countMax then ebadArgs else sok

/-- Number check of a deregistration. -/
def unregisterCheck (d : Cpts) (hwPushNum : U8) : Status :=
  if hwPushNum.toNat ≥ d.countMax then ebadArgs else sok

/-- The map with the cell of one index replaced. -/
def store (map : Fin d.countMax → Option (Fin d.procs)) (k : ℕ) (v : Option (Fin d.procs)) :
    Fin d.countMax → Option (Fin d.procs) :=
  fun i => if i.val = k then v else map i

/-- `CpswProxyServer_registerRemoteTimerHandlerCb`. -/
def registerRemoteTimerHandlerCb (s : NotifyService d) (hostId : Fin d.procs) (hwPushNum : U8)
    (r : SubSteps) : NotifyService d × Status :=
  if registerCheck d hwPushNum = sok then
    let marked := {s with dstProcMask := setBit s.dstProcMask hostId}
    if r.status = sok then
      ({marked with
        hwPush2CoreIdMap := store s.hwPush2CoreIdMap (d.norm hwPushNum) (some hostId)},sok)
    else (marked,r.status)
  else (s,registerCheck d hwPushNum)

/-- `CpswProxyServer_unregisterRemoteTimerHandlerCb`. -/
def unregisterRemoteTimerHandlerCb (s : NotifyService d) (hostId : Fin d.procs)
    (hwPushNum : U8) (r : SubSteps) : NotifyService d × Status :=
  if unregisterCheck d hwPushNum = sok then
    let marked := {s with dstProcMask := clearBit s.dstProcMask hostId}
    if r.status = sok then
      ({marked with
        hwPush2CoreIdMap := store s.hwPush2CoreIdMap (d.norm hwPushNum) none},sok)
    else (marked,r.status)
  else (s,unregisterCheck d hwPushNum)

/-- One round of the notify task: the events it woke for and the outcomes
of its calls. -/
structure Round (d : Cpts) where
  /-- Pending events. -/
  events : U32
  /-- Outcome of the time-stamp look-up of each push. -/
  lookup : Fin d.countMax → Status
  /-- Outcome of sending the message of each push. -/
  send : Fin d.countMax → Status

/-- A push is pending in a round. -/
def Round.pending (r : Round d) (i : Fin d.countMax) : Bool := isSet r.events i

/-- Core that the message of a push goes to. -/
def forwardTo (s : NotifyService d) (i : Fin d.countMax) : Option (Fin d.procs) :=
  (s.hwPush2CoreIdMap i).filter fun c => isSet s.dstProcMask c

/-- Body of the loop of `CpswProxyServer_notifyServiceTaskFxn`: status and
messages sent so far. -/
def notifyPush (s : NotifyService d) (r : Round d)
    (acc : Status × List (Fin d.countMax × Fin d.procs)) (i : Fin d.countMax) :
    Status × List (Fin d.countMax × Fin d.procs) :=
  if r.pending i then
    if r.lookup i = sok then
      match forwardTo s i with
      | some c => (r.send i,acc.2 ++ [(i,c)])
      | none => (sok,acc.2)
    else (r.lookup i,acc.2)
  else acc

/-- One round of `CpswProxyServer_notifyServiceTaskFxn`. -/
def notifyRound (s : NotifyService d) (r : Round d) :
    Status × List (Fin d.countMax × Fin d.procs) :=
  if r.events ≠ 0#32 ∧ s.rtnVal = sok ∧ s.hEnet = true then
    (List.finRange d.countMax).foldl (notifyPush s r) (s.rtnVal,[])
  else (s.rtnVal,[])

/-- Requests of any core and rounds of the notify task. -/
inductive Event (d : Cpts) where
  | register (hostId : Fin d.procs) (hwPushNum : U8) (r : SubSteps)
  | unregister (hostId : Fin d.procs) (hwPushNum : U8) (r : SubSteps)
  | notify (r : Round d)

/-- The service after an event. -/
def step (s : NotifyService d) : Event d → NotifyService d
  | .register c n r => (registerRemoteTimerHandlerCb s c n r).1
  | .unregister c n r => (unregisterRemoteTimerHandlerCb s c n r).1
  | .notify r => {s with rtnVal := (notifyRound s r).1}

/-- The next event of a push reaches the core: every round in which it is
pending and its time stamp is found sends it there. -/
def Forwards (s : NotifyService d) (i : Fin d.countMax) (c : Fin d.procs) : Prop :=
  ∀ r : Round d, r.pending i = true → r.lookup i = sok → (i,c) ∈ (notifyRound s r).2

/-- A mapped push has its core in the mask and is forwarded to it. -/
structure Consistent (s : NotifyService d) : Prop where
  /-- The core is to be notified. -/
  masked : ∀ i c, s.hwPush2CoreIdMap i = some c → isSet s.dstProcMask c = true
  /-- The core gets the next event. -/
  forwards : ∀ i c, s.hwPush2CoreIdMap i = some c → Forwards s i c

/-- The push of this number is mapped to no core. -/
def Unmapped (s : NotifyService d) (hwPushNum : U8) : Prop :=
  ∀ i, i.val = d.norm hwPushNum → s.hwPush2CoreIdMap i = none

/-- What an event promises besides consistency. A number that registers can
be unregistered. An index that is stored to lies in the map. A push whose
registration failed, and one that was unregistered, is mapped to no core.
Unregistering a push leaves the other pushes of its core forwarded. -/
def EventOk (s : NotifyService d) : Event d → Prop
  | .register c n r =>
    (registerCheck d n = sok → unregisterCheck d n = sok) ∧
    ((registerRemoteTimerHandlerCb s c n r).2 = sok → d.norm n < d.countMax) ∧
    ((registerRemoteTimerHandlerCb s c n r).2 ≠ sok → Unmapped (step s (.register c n r)) n)
  | .unregister c n r =>
    ((unregisterRemoteTimerHandlerCb s c n r).2 = sok →
      d.norm n < d.countMax ∧ Unmapped (step s (.unregister c n r)) n) ∧
    ∀ j, j.val ≠ d.norm n → s.hwPush2CoreIdMap j = some c →
      Forwards (step s (.unregister c n r)) j c
  | .notify _ => True

/-- The task got its driver handle and no call of it has failed last. -/
def Running (s : NotifyService d) : Prop := s.rtnVal = sok ∧ s.hEnet = true

/-- The last pending push of a round. -/
def lastPending (r : Round d) : Option (Fin d.countMax) :=
  ((List.finRange d.countMax).filter r.pending).getLast?

/-- An event keeps the registrations consistent. -/
def KeepsTimers (s : NotifyService d) : Event d → Prop
  | .register _ n r => registerCheck d n = sok →
    unregisterCheck d n = sok ∧
    (r.status = sok → d.norm n < d.countMax ∧ Running s) ∧
    (r.status ≠ sok → Unmapped s n)
  | .unregister c n r => unregisterCheck d n = sok →
    (r.status = sok → d.norm n < d.countMax ∧
      ∀ j, s.hwPush2CoreIdMap j = some c → j.val = d.norm n) ∧
    (r.status ≠ sok → ∀ j, s.hwPush2CoreIdMap j ≠ some c)
  | .notify r => (∃ j c, s.hwPush2CoreIdMap j = some c) →
    ∀ i, lastPending r = some i →
      r.lookup i = sok ∧ (s.hwPush2CoreIdMap i ≠ none → r.send i = sok)

section Forwarding

variable {s : NotifyService d} {r : Round d} {i j : Fin d.countMax} {c : Fin d.procs}

/-- The round sends the message of this push to this core. -/
def Sends (s : NotifyService d) (r : Round d) (i : Fin d.countMax) (c : Fin d.procs) : Prop :=
  r.pending i = true ∧ r.lookup i = sok ∧ forwardTo s i = some c

/-- Status that a pending push leaves. -/
def pushStatus (s : NotifyService d) (r : Round d) (i : Fin d.countMax) : Status :=
  if r.lookup i = sok then
    match forwardTo s i with
    | some _ => r.send i
    | none => sok
  else r.lookup i

theorem forwardTo_eq_some_iff :
    forwardTo s i = some c ↔ s.hwPush2CoreIdMap i = some c ∧ isSet s.dstProcMask c = true := by
  unfold forwardTo
  exact Option.filter_eq_some_iff

theorem pushStatus_eq_sok_iff :
    pushStatus s r i = sok ↔ r.lookup i = sok ∧ (forwardTo s i ≠ none → r.send i = sok) := by
  unfold pushStatus
  by_cases hl : r.lookup i = sok
  · rw [if_pos hl]
    cases forwardTo s i with
    | none => simp [hl]
    | some c => simp [hl]
  · rw [if_neg hl]
    exact iff_of_false hl fun h => hl h.1

/-- One push adds at most its own message. -/
theorem mem_notifyPush (acc : Status × List (Fin d.countMax × Fin d.procs)) :
    (j,c) ∈ (notifyPush s r acc i).2 ↔ (j,c) ∈ acc.2 ∨ (j = i ∧ Sends s r i c) := by
  unfold notifyPush Sends
  by_cases he : r.pending i = true
  · by_cases hl : r.lookup i = sok
    · rw [if_pos he,if_pos hl]
      cases hf : forwardTo s i with
      | none => simp
      | some k =>
        simp only [List.mem_append,List.mem_singleton,Prod.mk.injEq,he,hl,Option.some.injEq,
          true_and]
        rw [eq_comm (a := c)]
    · rw [if_pos he,if_neg hl]
      exact (or_iff_left fun h => hl h.2.2.1).symm
  · rw [if_neg he]
    exact (or_iff_left fun h => he h.2.1).symm

/-- The loop sends the messages of the pushes it visits. -/
theorem mem_foldl_notifyPush (l : List (Fin d.countMax))
    (acc : Status × List (Fin d.countMax × Fin d.procs)) :
    (j,c) ∈ (l.foldl (notifyPush s r) acc).2 ↔ (j,c) ∈ acc.2 ∨ (j ∈ l ∧ Sends s r j c) := by
  induction l generalizing acc with
  | nil => simp
  | cons i l ih =>
    rw [List.foldl_cons,ih,mem_notifyPush,or_assoc,List.mem_cons,or_and_right]
    have hi : j = i ∧ Sends s r i c ↔ j = i ∧ Sends s r j c :=
      and_congr_right fun h => by rw [h]
    rw [hi]

/-- The loop ends with the status of the last pending push it visits. -/
theorem foldl_notifyPush_status (l : List (Fin d.countMax))
    (acc : Status × List (Fin d.countMax × Fin d.procs)) :
    (l.foldl (notifyPush s r) acc).1 =
      ((l.filter r.pending).getLast?.map (pushStatus s r)).getD
        acc.1 := by
  induction l using List.reverseRecOn with
  | nil => rfl
  | append_singleton l i ih =>
    rw [List.foldl_append,List.foldl_cons,List.foldl_nil,List.filter_append]
    by_cases he : r.pending i = true
    · rw [List.filter_cons_of_pos (p := r.pending) he,List.filter_nil,List.getLast?_concat]
      unfold notifyPush pushStatus
      rw [if_pos he]
      by_cases hl : r.lookup i = sok
      · rw [if_pos hl]
        cases hf : forwardTo s i with
        | none => simp [hl,hf]
        | some k => simp [hl,hf]
      · simp [hl]
    · rw [List.filter_cons_of_neg (p := r.pending) he,List.filter_nil,List.append_nil,← ih]
      unfold notifyPush
      rw [if_neg he]

/-- A pending push wakes the task. -/
theorem events_ne_zero (h : r.pending i = true) : r.events ≠ 0#32 := by
  intro hz
  unfold Round.pending at h
  rw [hz,isSet_zero] at h
  exact absurd h Bool.false_ne_true

/-- A mapped push is forwarded exactly when its core is to be notified and
the task runs. -/
theorem forwards_iff (hm : s.hwPush2CoreIdMap i = some c) :
    Forwards s i c ↔ isSet s.dstProcMask c = true ∧ Running s := by
  constructor
  · intro h
    have hi : i.val < 32 := lt_of_lt_of_le i.isLt d.countMax_le
    have hev := h ⟨bit i,fun _ => sok,fun _ => sok⟩ (isSet_bit_self hi) rfl
    unfold notifyRound at hev
    by_cases hrun : s.rtnVal = sok ∧ s.hEnet = true
    · rw [if_pos ⟨events_ne_zero (r := ⟨bit i,fun _ => sok,fun _ => sok⟩) (isSet_bit_self hi),
        hrun⟩,mem_foldl_notifyPush] at hev
      rcases hev with hnil | ⟨-,hsend⟩
      · exact absurd hnil List.not_mem_nil
      · exact ⟨(forwardTo_eq_some_iff.mp hsend.2.2).2,hrun⟩
    · rw [if_neg fun h => hrun h.2] at hev
      exact absurd hev List.not_mem_nil
  · rintro ⟨hmask,hrun⟩ r he hl
    unfold notifyRound
    rw [if_pos ⟨events_ne_zero he,hrun⟩,mem_foldl_notifyPush]
    exact .inr ⟨List.mem_finRange i,he,hl,forwardTo_eq_some_iff.mpr ⟨hm,hmask⟩⟩

theorem consistent_iff :
    Consistent s ↔
      ∀ i c, s.hwPush2CoreIdMap i = some c → isSet s.dstProcMask c = true ∧ Running s := by
  constructor
  · intro h i c hm
    exact (forwards_iff hm).mp (h.forwards i c hm)
  · intro h
    exact ⟨fun i c hm => (h i c hm).1,fun i c hm => (forwards_iff hm).mpr (h i c hm)⟩

/-- A round leaves a running task without error exactly when its last
pending push does. -/
theorem notifyRound_status (hrun : Running s) :
    (notifyRound s r).1 = sok ↔ ∀ i, lastPending r = some i → pushStatus s r i = sok := by
  unfold notifyRound lastPending
  by_cases he : r.events = 0#32
  · have hnone : (List.finRange d.countMax).filter r.pending = [] :=
      List.filter_eq_nil_iff.mpr fun i _ h => events_ne_zero h he
    rw [if_neg fun h => h.1 he,hnone]
    simp [hrun.1]
  · rw [if_pos ⟨he,hrun⟩,foldl_notifyPush_status,hrun.1]
    cases ((List.finRange d.countMax).filter r.pending).getLast? with
    | none => simp
    | some i => simp

end Forwarding

section Steps

variable {s : NotifyService d} {c : Fin d.procs} {n : U8} {r : SubSteps}

theorem store_of_ne {map : Fin d.countMax → Option (Fin d.procs)} {k : ℕ}
    {v : Option (Fin d.procs)} {i : Fin d.countMax} (h : i.val ≠ k) : store map k v i = map i :=
  if_neg h

theorem store_of_eq {map : Fin d.countMax → Option (Fin d.procs)} {k : ℕ}
    {v : Option (Fin d.procs)} {i : Fin d.countMax} (h : i.val = k) : store map k v i = v :=
  if_pos h

theorem isSet_core (m : U32) : isSet (setBit m c) c = true :=
  isSet_setBit_self (lt_of_lt_of_le c.isLt d.procs_le)

/-- A core in the mask stays in it when another one is added. -/
theorem isSet_setBit_mono {m : U32} {i j : ℕ} (h : isSet m j = true) :
    isSet (setBit m i) j = true := by
  unfold setBit
  rw [isSet_or,h,Bool.true_or]

/-- What a registration does: it is refused, it fails after the core was
added to the mask, or it maps the push. -/
theorem register_cases (s : NotifyService d) (c : Fin d.procs) (n : U8) (r : SubSteps) :
    (registerCheck d n ≠ sok ∧
      registerRemoteTimerHandlerCb s c n r = (s,registerCheck d n)) ∨
    (registerCheck d n = sok ∧ r.status ≠ sok ∧ registerRemoteTimerHandlerCb s c n r =
      ({s with dstProcMask := setBit s.dstProcMask c},r.status)) ∨
    (registerCheck d n = sok ∧ r.status = sok ∧ registerRemoteTimerHandlerCb s c n r =
      ({s with
        dstProcMask := setBit s.dstProcMask c
        hwPush2CoreIdMap := store s.hwPush2CoreIdMap (d.norm n) (some c)},sok)) := by
  unfold registerRemoteTimerHandlerCb
  by_cases hc : registerCheck d n = sok
  · by_cases hr : r.status = sok
    · exact .inr (.inr ⟨hc,hr,by rw [if_pos hc,if_pos hr]⟩)
    · exact .inr (.inl ⟨hc,hr,by rw [if_pos hc,if_neg hr]⟩)
  · exact .inl ⟨hc,if_neg hc⟩

/-- What a deregistration does: it is refused, it fails after the core was
taken from the mask, or it also unmaps the push. -/
theorem unregister_cases (s : NotifyService d) (c : Fin d.procs) (n : U8) (r : SubSteps) :
    (unregisterCheck d n ≠ sok ∧
      unregisterRemoteTimerHandlerCb s c n r = (s,unregisterCheck d n)) ∨
    (unregisterCheck d n = sok ∧ r.status ≠ sok ∧ unregisterRemoteTimerHandlerCb s c n r =
      ({s with dstProcMask := clearBit s.dstProcMask c},r.status)) ∨
    (unregisterCheck d n = sok ∧ r.status = sok ∧ unregisterRemoteTimerHandlerCb s c n r =
      ({s with
        dstProcMask := clearBit s.dstProcMask c
        hwPush2CoreIdMap := store s.hwPush2CoreIdMap (d.norm n) none},sok)) := by
  unfold unregisterRemoteTimerHandlerCb
  by_cases hc : unregisterCheck d n = sok
  · by_cases hr : r.status = sok
    · exact .inr (.inr ⟨hc,hr,by rw [if_pos hc,if_pos hr]⟩)
    · exact .inr (.inl ⟨hc,hr,by rw [if_pos hc,if_neg hr]⟩)
  · exact .inl ⟨hc,if_neg hc⟩

/-- A number that does not register has no cell in the map. -/
theorem unmapped_of_refused (h : registerCheck d n ≠ sok) : Unmapped s n := by
  intro i hi
  have hlt : d.norm n < d.countMax := hi ▸ i.isLt
  have hle := d.norm_le n hlt
  exact absurd (if_neg (by omega)) h

/-- A registration is right exactly when it keeps the service consistent. -/
theorem register_exact (h : Consistent s) :
    Consistent (step s (.register c n r)) ∧ EventOk s (.register c n r) ↔
      KeepsTimers s (.register c n r) := by
  rw [consistent_iff] at h
  dsimp only [EventOk,KeepsTimers,step]
  rcases register_cases s c n r with ⟨hc,heq⟩ | ⟨hc,hr,heq⟩ | ⟨hc,hr,heq⟩
  · rw [heq]
    exact iff_of_true ⟨consistent_iff.mpr h,fun hok => absurd hok hc,fun hok => absurd hok hc,
      fun _ => unmapped_of_refused hc⟩ fun hok => absurd hok hc
  · rw [heq]
    constructor
    · rintro ⟨-,hu,-,hun⟩ _
      exact ⟨hu hc,fun hok => absurd hok hr,fun _ => hun hr⟩
    · intro hG
      obtain ⟨hu,-,hun⟩ := hG hc
      refine ⟨consistent_iff.mpr fun i k hm => ?_,fun _ => hu,fun hok => absurd hok hr,
        fun _ => hun hr⟩
      exact ⟨isSet_setBit_mono (h i k hm).1,(h i k hm).2⟩
  · rw [heq]
    constructor
    · rintro ⟨hP,hu,hin,-⟩ _
      have hlt := hin rfl
      have hmap := (consistent_iff.mp hP) ⟨d.norm n,hlt⟩ c (store_of_eq rfl)
      exact ⟨hu hc,fun _ => ⟨hlt,hmap.2⟩,fun hok => absurd hr hok⟩
    · intro hG
      obtain ⟨hu,hin,-⟩ := hG hc
      obtain ⟨hlt,hrun⟩ := hin hr
      refine ⟨consistent_iff.mpr fun i k hm => ?_,fun _ => hu,fun _ => hlt,
        fun hok => absurd rfl hok⟩
      by_cases hi : i.val = d.norm n
      · have hk : c = k := Option.some.inj ((store_of_eq hi).symm.trans hm)
        rw [← hk]
        exact ⟨isSet_core _,hrun⟩
      · have hold : s.hwPush2CoreIdMap i = some k := (store_of_ne hi).symm.trans hm
        exact ⟨isSet_setBit_mono (h i k hold).1,(h i k hold).2⟩

/-- A deregistration is right exactly when it keeps the service consistent. -/
theorem unregister_exact (h : Consistent s) :
    Consistent (step s (.unregister c n r)) ∧ EventOk s (.unregister c n r) ↔
      KeepsTimers s (.unregister c n r) := by
  rw [consistent_iff] at h
  dsimp only [EventOk,KeepsTimers,step]
  rcases unregister_cases s c n r with ⟨hc,heq⟩ | ⟨hc,hr,heq⟩ | ⟨hc,hr,heq⟩
  · rw [heq]
    exact iff_of_true ⟨consistent_iff.mpr h,fun hok => absurd hok hc,
      fun j _ hm => (forwards_iff hm).mpr (h j c hm)⟩ fun hok => absurd hok hc
  · rw [heq]
    constructor
    · rintro ⟨hP,-⟩ _
      refine ⟨fun hok => absurd hok hr,fun _ j hm => ?_⟩
      have hmask := ((consistent_iff.mp hP) j c hm).1
      rw [isSet_clearBit_self] at hmask
      exact absurd hmask Bool.false_ne_true
    · intro hG
      have hno := (hG hc).2 hr
      refine ⟨consistent_iff.mpr fun j k hm => ?_,fun hok => absurd hok hr,
        fun j _ hm => absurd hm (hno j)⟩
      have hk : c.val ≠ k.val := fun hck => hno j (Fin.ext hck ▸ hm)
      exact ⟨(isSet_clearBit_of_ne hk).trans (h j k hm).1,(h j k hm).2⟩
  · rw [heq]
    constructor
    · rintro ⟨-,hun,hothers⟩ _
      refine ⟨fun _ => ⟨(hun rfl).1,fun j hm => ?_⟩,fun hok => absurd hr hok⟩
      by_contra hj
      have hmask := (forwards_iff ((store_of_ne hj).trans hm)).mp (hothers j hj hm)
      rw [isSet_clearBit_self] at hmask
      exact absurd hmask.1 Bool.false_ne_true
    · intro hG
      obtain ⟨hlt,hown⟩ := (hG hc).1 hr
      refine ⟨consistent_iff.mpr fun j k hm => ?_,fun _ => ⟨hlt,fun i hi => store_of_eq hi⟩,
        fun j hj hm => absurd (hown j hm) hj⟩
      by_cases hj : j.val = d.norm n
      · exact absurd ((store_of_eq hj).symm.trans hm).symm (Option.some_ne_none k)
      · have hold : s.hwPush2CoreIdMap j = some k := (store_of_ne hj).symm.trans hm
        have hk : c.val ≠ k.val := fun hck => hj (hown j (Fin.ext hck ▸ hold))
        exact ⟨(isSet_clearBit_of_ne hk).trans (h j k hold).1,(h j k hold).2⟩

/-- A round is right exactly when it keeps the service consistent. -/
theorem notify_exact (h : Consistent s) {r : Round d} :
    Consistent (step s (.notify r)) ∧ EventOk s (.notify r) ↔ KeepsTimers s (.notify r) := by
  rw [consistent_iff] at h
  dsimp only [EventOk,KeepsTimers,step]
  rw [and_true,consistent_iff]
  -- A mapped push has its core in the mask, so the round sends it.
  have hsend : ∀ i, forwardTo s i ≠ none ↔ s.hwPush2CoreIdMap i ≠ none := by
    intro i
    rw [Option.ne_none_iff_exists',Option.ne_none_iff_exists']
    exact exists_congr fun k => ⟨fun hf => (forwardTo_eq_some_iff.mp hf).1,
      fun hm => forwardTo_eq_some_iff.mpr ⟨hm,(h i k hm).1⟩⟩
  constructor
  · rintro hP ⟨j,k,hm⟩ i hlast
    have hok := (notifyRound_status (h j k hm).2).mp (hP j k hm).2.1 i hlast
    rw [pushStatus_eq_sok_iff,hsend] at hok
    exact hok
  · intro hG j k hm
    refine ⟨(h j k hm).1,?_,(h j k hm).2.2⟩
    refine (notifyRound_status (h j k hm).2).mpr fun i hlast => ?_
    rw [pushStatus_eq_sok_iff,hsend]
    exact hG ⟨j,k,hm⟩ i hlast

theorem step_exact (h : Consistent s) (e : Event d) :
    Consistent (step s e) ∧ EventOk s e ↔ KeepsTimers s e := by
  cases e with
  | register c n r => exact register_exact h
  | unregister c n r => exact unregister_exact h
  | notify r => exact notify_exact h

end Steps

theorem consistent_init (d : Cpts) (rtnVal : Status) (hEnet : Bool) :
    Consistent (initNotifyServiceEp d rtnVal hEnet) :=
  ⟨fun _ c hm => absurd hm (Option.some_ne_none c).symm,
    fun _ c hm => absurd hm (Option.some_ne_none c).symm⟩

/-- Along every run of registrations, deregistrations and rounds of the
notify task, the registrations are consistent and every event keeps its
promise exactly when every event keeps the timers. -/
theorem consistent_iff_guarded (d : Cpts) (rtnVal : Status) (hEnet : Bool)
    (events : List (Event d)) :
    Along step Consistent (initNotifyServiceEp d rtnVal hEnet) events ∧
        Guarded step EventOk (initNotifyServiceEp d rtnVal hEnet) events ↔
      Guarded step KeepsTimers (initNotifyServiceEp d rtnVal hEnet) events := by
  apply along_and_guarded_iff (I := Consistent)
  · exact fun s h => h
  · exact fun s e h hG => ((step_exact h e).mpr hG).1
  · exact fun s e h => step_exact h e
  · exact consistent_init d rtnVal hEnet

/-- Eight pushes with numbers from 1, and three cores. -/
def eightPushes : Cpts where
  countMax := 8
  norm n := n.toNat - 1
  procs := 3
  countMax_le := by decide
  procs_le := by decide
  norm_le := by
    intro n hn
    omega

/-- Core 0 registers the pushes 1 and 2 and unregisters the first. -/
def twoPushes : List (Event eightPushes) :=
  [.register ⟨0,by decide⟩ 1#8 ⟨sok,sok⟩,.register ⟨0,by decide⟩ 2#8 ⟨sok,sok⟩,
    .unregister ⟨0,by decide⟩ 1#8 ⟨sok,sok⟩]

/-- A core that unregisters one of its two pushes is no longer notified of
the other. -/
theorem unregister_stops_other_push :
    ¬ (Along step Consistent (initNotifyServiceEp eightPushes sok true) twoPushes ∧
      Guarded step EventOk (initNotifyServiceEp eightPushes sok true) twoPushes) := by
  rintro ⟨halong,-⟩
  have hmask := (along_final halong).masked ⟨1,by decide⟩ ⟨0,by decide⟩ (by decide)
  revert hmask
  decide

end EthernetFirmware.RemoteTimers
