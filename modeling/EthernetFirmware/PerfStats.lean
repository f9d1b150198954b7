import Mathlib.Algebra.Order.BigOperators.Group.List
import Mathlib.Data.List.FinRange
import EthernetFirmware.CArrays
import EthernetFirmware.GuardedRuns
import EthernetFirmware.RemoteConfig

/-!
# Load of the tasks

Tasks are registered in a table. Each update adds the time that a task ran,
and the time that went by, to the task's entry; a query divides the one by
the other. A reset clears the times of all entries. The state keeps, beside
what the module stores, the loads added for each task since the last reset,
newest first.
-/

namespace EthernetFirmware.PerfStats

open Function RemoteConfig CArrays GuardedRuns

/-- `APP_PERF_STATS_TASK_MAX`. -/
abbrev taskMax : ℕ := 16

/-- `APP_PERF_STATS_TASK_NAME_MAX`. -/
def taskNameMax : ℕ := 12

/-- `APP_PERF_STATS_CMD_RESET_LOAD_CALC`. -/
def cmdResetLoadCalc : U32 := 1

/-- `APP_PERF_STATS_CMD_GET_CPU_LOAD`. -/
def cmdGetCpuLoad : U32 := 2

/-- `APP_PERF_STATS_CMD_GET_CPU_TASK_STATS`. -/
def cmdGetCpuTaskStats : U32 := 3

/-- `sizeof(app_perf_stats_cpu_load_t)`. -/
def cpuLoadSize : U32 := 12

/-- `sizeof(app_perf_stats_task_stats_t)`. -/
def taskStatsSize : U32 := 260

/-- `app_perf_stats_load_t`, and the times that `LoadP_getTaskLoad` returns. -/
structure Load where
  /-- `total_time`. -/
  totalTime : BitVec 64
  /-- `thread_time`. -/
  threadTime : BitVec 64

variable {H : Type*}

/-- `app_perf_stats_obj_t`; its lock makes the functions exclude one
another. -/
structure Obj (H : Type*) where
  /-- `idleLoad`. -/
  idleLoad : Load
  /-- `num_tasks`. -/
  numTasks : U32
  /-- The tasks registered have entries. -/
  numTasks_le : numTasks.toNat ≤ taskMax
  /-- `taskLoad`. -/
  taskLoad : Fin taskMax → Load
  /-- `task_name`. -/
  taskName : Fin taskMax → CString U8
  /-- `task_handle`. -/
  taskHandle : Fin taskMax → Option H

/-- `app_perf_stats_cpu_task_stats_t`. -/
structure TaskStat where
  /-- `task_name`. -/
  taskName : CString U8
  /-- `task_load`. -/
  taskLoad : U32

/-- `app_perf_stats_task_stats_t`. -/
structure TaskStats where
  /-- `num_tasks`. -/
  numTasks : U32
  /-- `task_stats`. -/
  taskStats : Fin taskMax → TaskStat

/-- `strncpy` into a name field whose last byte is then cleared. -/
def copyName (name : CString U8) : CString U8 :=
  ⟨name.chars.take (taskNameMax - 1),fun h => name.noNul (List.mem_of_mem_take h)⟩

/-- The object after `memset`. -/
def Obj.zero : Obj H :=
  ⟨⟨0,0⟩,0,by decide,fun _ => ⟨0,0⟩,fun _ => ⟨[],List.not_mem_nil⟩,fun _ => none⟩

/-- Indices below `num_tasks`, in the order of the loops. -/
def firstTasks (n : U32) : List (Fin taskMax) :=
  (List.finRange taskMax).filter fun i => i.val < n.toNat

/-- `appPerfStatsResetLoadCalc`. -/
def resetLoadCalc : Load := ⟨0,0⟩

/-- `appPerfStatsLoadCalc`; a division by zero gives no result. -/
def loadCalc (load : Load) : Option U32 :=
  if load.totalTime = 0 then none
  else some ((load.threadTime * 10000 / load.totalTime).setWidth 32)

/-- `appPerfStatsResetLoadCalcAll`. -/
def resetLoadCalcAll (obj : Obj H) : Obj H :=
  { obj with idleLoad := resetLoadCalc, taskLoad := fun _ => resetLoadCalc }

/-- `appPerfStatsGetTaskLoadAll`, into the caller's statistics. -/
def getTaskLoadAll (obj : Obj H) (cpuStats : TaskStats) : Option TaskStats :=
  let numTasks : U32 :=
    if taskMax < obj.numTasks.toNat then BitVec.ofNat 32 taskMax else obj.numTasks
  (fillEntries
    (fun i => (loadCalc (obj.taskLoad i)).map fun load => ⟨copyName (obj.taskName i),load⟩)
    (firstTasks numTasks) cpuStats.taskStats).map fun taskStats => ⟨numTasks,taskStats⟩

/-- What `appPerfStatsHandler` answers and leaves. -/
structure Answer (H : Type*) where
  /-- Status. -/
  status : Status
  /-- `cpu_load` copied to the caller. -/
  cpuLoad : Option U32
  /-- Task statistics copied to the caller. -/
  taskStats : Option TaskStats
  /-- The object. -/
  obj : Obj H

/-- `appPerfStatsHandler`; `cpuLoad` is what `LoadP_getCPULoad` returns, and
`cpuStats` what the caller's statistics hold. -/
def handler (cmd prmSize cpuLoad : U32) (cpuStats : TaskStats) (obj : Obj H) :
    Option (Answer H) :=
  if cmd = cmdResetLoadCalc then some ⟨0,none,none,resetLoadCalcAll obj⟩
  else if cmd = cmdGetCpuLoad then
    if prmSize = cpuLoadSize then some ⟨0,some cpuLoad,none,obj⟩ else some ⟨-1,none,none,obj⟩
  else if cmd = cmdGetCpuTaskStats then
    if prmSize = taskStatsSize then
      (getTaskLoadAll obj cpuStats).map fun taskStats => ⟨0,none,some taskStats,obj⟩
    else some ⟨-1,none,none,obj⟩
  else some ⟨-1,none,none,obj⟩

/-- `appPerfStatsTaskLoadUpdate`. -/
def taskLoadUpdate (stat load : Load) : Load :=
  ⟨load.totalTime + stat.totalTime,load.threadTime + stat.threadTime⟩

/-- `appPerfStatsTaskLoadUpdateAll`; the call for an entry passes its task
handle to `LoadP_getTaskLoad`. -/
def taskLoadUpdateAll (getTaskLoad : Fin taskMax → Option H → Load) (obj : Obj H) : Obj H :=
  { obj with
    taskLoad := (firstTasks obj.numTasks).foldl
      (fun g i => update g i (taskLoadUpdate (getTaskLoad i (obj.taskHandle i)) (g i)))
      obj.taskLoad }

/-- The next entry is taken. -/
def Obj.addTask (obj : Obj H) (handle : H) (name : CString U8) (h : obj.numTasks.toNat < taskMax) :
    Obj H :=
  { obj with
    numTasks := obj.numTasks + 1
    numTasks_le := by
      have hmax : obj.numTasks.toNat < 16 := h
      exact (toNat_succ (by omega)).trans_le h
    taskName := update obj.taskName ⟨obj.numTasks.toNat,h⟩ (copyName name)
    taskHandle := update obj.taskHandle ⟨obj.numTasks.toNat,h⟩ (some handle) }

/-- `appPerfStatsRegisterTask`; handle and name may be null pointers. -/
def registerTask (handle : Option H) (name : Option (CString U8)) (obj : Obj H) :
    Status × Obj H :=
  match handle, name with
  | some handle, some name =>
    if h : obj.numTasks.toNat < taskMax then (0,obj.addTask handle name h) else (-1,obj)
  | _, _ => (-1,obj)

/-- Calls of the module. -/
inductive Event (H : Type*) where
  /-- `appPerfStatsInit`, and whether the lock can be created. -/
  | init (created : Bool)
  /-- `appPerfStatsRegisterTask`. -/
  | registerTask (handle : Option H) (name : Option (CString U8))
  /-- `appPerfStatsRtosLoadUpdate`, and what `LoadP_getTaskLoad` returns. -/
  | loadUpdate (getTaskLoad : Fin taskMax → Option H → Load)
  /-- `appPerfStatsHandler`. -/
  | command (cmd prmSize cpuLoad : U32) (cpuStats : TaskStats)

/-- The module, and the loads added for each task. -/
structure State (H : Type*) where
  /-- `g_app_perf_stats_obj`. -/
  obj : Obj H
  /-- `g_perf_stats_load_update_enable`. -/
  loadUpdateEnable : Bool
  /-- Loads added for a task since the last reset, newest first. -/
  samples : Fin taskMax → List Load

/-- The module before any call. -/
def start (H : Type*) : State H := ⟨.zero,false,fun _ => []⟩

/-- `appPerfStatsInit`: status, object and whether updates are enabled. -/
def init (created enable : Bool) : Status × Obj H × Bool :=
  if created then (0,resetLoadCalcAll .zero,true) else (-1,.zero,enable)

/-- A call. After a division by zero the module is left as it was. -/
def step (s : State H) : Event H → State H
  | .init created =>
    let r := init created s.loadUpdateEnable
    ⟨r.2.1,r.2.2,fun _ => []⟩
  | .registerTask handle name =>
    let r := registerTask handle name s.obj
    ⟨r.2,s.loadUpdateEnable,
      fun i => if r.1 = 0 ∧ i.val = s.obj.numTasks.toNat then [] else s.samples i⟩
  | .loadUpdate getTaskLoad =>
    if s.loadUpdateEnable then
      ⟨taskLoadUpdateAll getTaskLoad s.obj,s.loadUpdateEnable,
        fun i => if i.val < s.obj.numTasks.toNat then
          getTaskLoad i (s.obj.taskHandle i) :: s.samples i else s.samples i⟩
    else s
  | .command cmd prmSize cpuLoad cpuStats =>
    match handler cmd prmSize cpuLoad cpuStats s.obj with
    | some answer =>
      ⟨answer.obj,s.loadUpdateEnable,fun i => if cmd = cmdResetLoadCalc then [] else s.samples i⟩
    | none => s

/-- Time that went by in the loads added. -/
def totalTime (samples : List Load) : ℕ := (samples.map fun r => r.totalTime.toNat).sum

/-- Time that the task ran in the loads added. -/
def threadTime (samples : List Load) : ℕ := (samples.map fun r => r.threadTime.toNat).sum

/-- The load measured since the last reset, in units of a ten-thousandth. -/
def measuredLoad (samples : List Load) : ℕ := 10000 * threadTime samples / totalTime samples

/-- The command is a query of the task statistics. -/
def IsQuery (cmd prmSize : U32) : Prop := cmd = cmdGetCpuTaskStats ∧ prmSize = taskStatsSize

instance (cmd prmSize : U32) : Decidable (IsQuery cmd prmSize) :=
  inferInstanceAs (Decidable (_ ∧ _))

/-- The external loads: a task runs at most the time that goes by, and the
times added up since the last reset stay below `2 ^ 50`. -/
def StepAllowed (s : State H) : Event H → Prop
  | .loadUpdate getTaskLoad =>
    s.loadUpdateEnable = true → ∀ i : Fin taskMax, i.val < s.obj.numTasks.toNat →
      (getTaskLoad i (s.obj.taskHandle i)).threadTime.toNat ≤
          (getTaskLoad i (s.obj.taskHandle i)).totalTime.toNat ∧
        totalTime (s.samples i) + (getTaskLoad i (s.obj.taskHandle i)).totalTime.toNat < 2 ^ 50
  | _ => True

/-- The task statistics are those measured since the last reset. -/
structure StatsExact (s : State H) (stats : TaskStats) : Prop where
  /-- All registered tasks are reported. -/
  numTasks : stats.numTasks = s.obj.numTasks
  /-- No task has more than the full load. -/
  le : ∀ i : Fin taskMax, i.val < s.obj.numTasks.toNat →
    (stats.taskStats i).taskLoad.toNat ≤ 10000
  /-- The load is the one measured. -/
  load : ∀ i : Fin taskMax, i.val < s.obj.numTasks.toNat →
    (stats.taskStats i).taskLoad.toNat = measuredLoad (s.samples i)

/-- A command has an answer, and a query the task statistics. -/
def StepAnswered (s : State H) : Event H → Prop
  | .command cmd prmSize cpuLoad cpuStats =>
    ∃ answer, handler cmd prmSize cpuLoad cpuStats s.obj = some answer ∧
      (IsQuery cmd prmSize → ∃ stats, answer.taskStats = some stats ∧ StatsExact s stats)
  | _ => True

/-- The condition on a step: at a query some time was added for every
registered task since the last reset. -/
def StepMeasured (s : State H) : Event H → Prop
  | .command cmd prmSize _ _ =>
    IsQuery cmd prmSize → ∀ i : Fin taskMax, i.val < s.obj.numTasks.toNat →
      ∃ r ∈ s.samples i, r.totalTime ≠ 0
  | _ => True

section Entries

variable {load r : Load} {samples : List Load}

/-- An entry holds the times added since the last reset. -/
structure EntryOk (load : Load) (samples : List Load) : Prop where
  /-- Time that went by. -/
  total : load.totalTime.toNat = totalTime samples
  /-- Time that the task ran. -/
  thread : load.threadTime.toNat = threadTime samples
  /-- The task ran at most the time that went by. -/
  le : threadTime samples ≤ totalTime samples
  /-- The times are small enough to be multiplied. -/
  lt : totalTime samples < 2 ^ 50

theorem entryOk_nil : EntryOk resetLoadCalc [] := ⟨rfl,rfl,le_rfl,by decide⟩

/-- An update adds a load to the entry. -/
theorem EntryOk.add (h : EntryOk load samples) (hle : r.threadTime.toNat ≤ r.totalTime.toNat)
    (hlt : totalTime samples + r.totalTime.toNat < 2 ^ 50) :
    EntryOk (taskLoadUpdate r load) (r :: samples) := by
  have htotal : totalTime (r :: samples) = r.totalTime.toNat + totalTime samples := rfl
  have hthread : threadTime (r :: samples) = r.threadTime.toNat + threadTime samples := rfl
  have hle' := h.le
  constructor
  · unfold taskLoadUpdate
    rw [BitVec.toNat_add,h.total,htotal]
    omega
  · unfold taskLoadUpdate
    rw [BitVec.toNat_add,h.thread,hthread]
    omega
  · omega
  · omega

/-- Some time went by exactly when some load added says so. -/
theorem totalTime_ne_zero_iff : totalTime samples ≠ 0 ↔ ∃ r ∈ samples, r.totalTime ≠ 0 := by
  induction samples with
  | nil => simp [totalTime]
  | cons r samples ih =>
    have htotal : totalTime (r :: samples) = r.totalTime.toNat + totalTime samples := rfl
    have hr : r.totalTime ≠ 0 ↔ r.totalTime.toNat ≠ 0 := BitVec.toNat_inj.symm.not
    rw [List.exists_mem_cons_iff,← ih,hr,htotal]
    omega

/-- The load of an entry can be calculated where some time went by. -/
theorem EntryOk.exists_loadCalc_iff (h : EntryOk load samples) :
    (∃ v, loadCalc load = some v) ↔ ∃ r ∈ samples, r.totalTime ≠ 0 := by
  have hzero : load.totalTime ≠ 0 ↔ load.totalTime.toNat ≠ 0 := BitVec.toNat_inj.symm.not
  rw [← totalTime_ne_zero_iff,← h.total,← hzero]
  unfold loadCalc
  constructor
  · rintro ⟨v,hv⟩ htotal
    rw [if_pos htotal] at hv
    cases hv
  · intro htotal
    exact ⟨_,if_neg htotal⟩

/-- A load calculated is the one measured. -/
theorem EntryOk.loadCalc_eq (h : EntryOk load samples) {v : U32} (hv : loadCalc load = some v) :
    v.toNat ≤ 10000 ∧ v.toNat = measuredLoad samples := by
  have hle := h.le
  have hlt := h.lt
  have hbound : measuredLoad samples ≤ 10000 := by
    apply Nat.div_le_of_le_mul
    rw [Nat.mul_comm]
    exact Nat.mul_le_mul_right 10000 hle
  have hproduct : (load.threadTime * 10000).toNat = 10000 * threadTime samples := by
    have hfactor : (10000 : BitVec 64).toNat = 10000 := rfl
    rw [BitVec.toNat_mul,h.thread,hfactor]
    omega
  have hquotient : (load.threadTime * 10000 / load.totalTime).toNat = measuredLoad samples := by
    rw [BitVec.toNat_udiv,hproduct,h.total]
    rfl
  have hvalue : v.toNat = measuredLoad samples := by
    unfold loadCalc at hv
    split_ifs at hv with htotal
    rw [← Option.some.inj hv,BitVec.toNat_setWidth,hquotient]
    omega
  exact ⟨hvalue.trans_le hbound,hvalue⟩

end Entries

section Functions

variable {obj : Obj H} {cpuStats : TaskStats} {cmd prmSize cpuLoad : U32}

theorem mem_firstTasks {n : U32} {i : Fin taskMax} : i ∈ firstTasks n ↔ i.val < n.toNat := by
  simp [firstTasks]

/-- An update adds to the registered tasks, once to each. -/
theorem taskLoad_updateAll (getTaskLoad : Fin taskMax → Option H → Load) (obj : Obj H)
    (i : Fin taskMax) :
    (taskLoadUpdateAll getTaskLoad obj).taskLoad i =
      if i.val < obj.numTasks.toNat then
        taskLoadUpdate (getTaskLoad i (obj.taskHandle i)) (obj.taskLoad i)
      else obj.taskLoad i := by
  have hnodup : (firstTasks obj.numTasks).Nodup := (List.nodup_finRange taskMax).filter _
  unfold taskLoadUpdateAll
  dsimp only
  rw [foldl_update_apply (fun i => taskLoadUpdate (getTaskLoad i (obj.taskHandle i))) hnodup]
  simp only [mem_firstTasks]

/-- What a query answers of the registered tasks. -/
theorem getTaskLoadAll_eq_some {stats : TaskStats} (h : getTaskLoadAll obj cpuStats = some stats) :
    stats.numTasks = obj.numTasks ∧ ∀ i : Fin taskMax, i.val < obj.numTasks.toNat →
      loadCalc (obj.taskLoad i) = some (stats.taskStats i).taskLoad := by
  unfold getTaskLoadAll at h
  rw [if_neg (Nat.not_lt.mpr obj.numTasks_le)] at h
  obtain ⟨taskStats,hfill,rfl⟩ := Option.map_eq_some_iff.mp h
  refine ⟨rfl,fun i hi => ?_⟩
  have hentry := (fillEntries_eq_some hfill).1 i (mem_firstTasks.mpr hi)
  obtain ⟨load,hload,heq⟩ := Option.map_eq_some_iff.mp hentry
  dsimp only
  rw [← heq]
  exact hload

/-- A query is answered exactly where every load can be calculated. -/
theorem exists_getTaskLoadAll_iff :
    (∃ stats, getTaskLoadAll obj cpuStats = some stats) ↔
      ∀ i : Fin taskMax, i.val < obj.numTasks.toNat → ∃ v, loadCalc (obj.taskLoad i) = some v := by
  constructor
  · rintro ⟨stats,hstats⟩ i hi
    exact ⟨_,(getTaskLoadAll_eq_some hstats).2 i hi⟩
  · intro h
    have hrounds : ∀ i ∈ firstTasks obj.numTasks, ∃ stat : TaskStat,
        ((loadCalc (obj.taskLoad i)).map fun load => ⟨copyName (obj.taskName i),load⟩) =
          some stat := by
      intro i hi
      obtain ⟨v,hv⟩ := h i (mem_firstTasks.mp hi)
      exact ⟨_,Option.map_eq_some_iff.mpr ⟨v,hv,rfl⟩⟩
    obtain ⟨taskStats,hfill⟩ := exists_fillEntries hrounds cpuStats.taskStats
    refine ⟨⟨obj.numTasks,taskStats⟩,?_⟩
    unfold getTaskLoadAll
    rw [if_neg (Nat.not_lt.mpr obj.numTasks_le)]
    exact Option.map_eq_some_iff.mpr ⟨taskStats,hfill,rfl⟩

theorem handler_of_query (h : IsQuery cmd prmSize) :
    handler cmd prmSize cpuLoad cpuStats obj =
      (getTaskLoadAll obj cpuStats).map fun stats => ⟨0,none,some stats,obj⟩ := by
  obtain ⟨rfl,rfl⟩ := h
  rfl

/-- Every other command is answered. -/
theorem exists_handler_of_not_query (cpuLoad : U32) (cpuStats : TaskStats) (obj : Obj H)
    (h : ¬ IsQuery cmd prmSize) :
    ∃ answer, handler cmd prmSize cpuLoad cpuStats obj = some answer := by
  unfold handler
  split_ifs with hreset hcpu hcpuSize hquery hsize
  · exact ⟨_,rfl⟩
  · exact ⟨_,rfl⟩
  · exact ⟨_,rfl⟩
  · exact absurd ⟨hquery,hsize⟩ h
  · exact ⟨_,rfl⟩
  · exact ⟨_,rfl⟩

/-- A command leaves the object alone, unless it is a reset. -/
theorem obj_handler {answer : Answer H}
    (h : handler cmd prmSize cpuLoad cpuStats obj = some answer) :
    answer.obj = if cmd = cmdResetLoadCalc then resetLoadCalcAll obj else obj := by
  unfold handler at h
  split_ifs at h ⊢ with hreset hcpu hcpuSize hquery hsize
  · cases h
    rfl
  · cases h
    rfl
  · cases h
    rfl
  · obtain ⟨stats,-,rfl⟩ := Option.map_eq_some_iff.mp h
    rfl
  · cases h
    rfl
  · cases h
    rfl

/-- The count after a registration. -/
theorem toNat_numTasks_addTask {handle : H} {name : CString U8} (h : obj.numTasks.toNat < taskMax) :
    (obj.addTask handle name h).numTasks.toNat = obj.numTasks.toNat + 1 := by
  have hmax : obj.numTasks.toNat < 16 := h
  exact toNat_succ (by omega)

/-- A registration fails, or takes the next entry. -/
theorem registerTask_cases (handle : Option H) (name : Option (CString U8)) (obj : Obj H) :
    registerTask handle name obj = (-1,obj) ∨
      ∃ handle' name' h, registerTask handle name obj = (0,obj.addTask handle' name' h) := by
  unfold registerTask
  cases handle with
  | none => exact Or.inl rfl
  | some handle =>
    cases name with
    | none => exact Or.inl rfl
    | some name =>
      dsimp only
      split_ifs with h
      · exact Or.inr ⟨handle,name,h,rfl⟩
      · exact Or.inl rfl

/-- A registration leaves the times alone. -/
theorem taskLoad_registerTask (handle : Option H) (name : Option (CString U8)) (obj : Obj H) :
    (registerTask handle name obj).2.taskLoad = obj.taskLoad := by
  rcases registerTask_cases handle name obj with hfail | ⟨handle',name',hroom,hok⟩
  · rw [hfail]
  · rw [hok]
    rfl

/-- No registration lowers the count. -/
theorem numTasks_le_registerTask (handle : Option H) (name : Option (CString U8)) (obj : Obj H) :
    obj.numTasks.toNat ≤ (registerTask handle name obj).2.numTasks.toNat := by
  rcases registerTask_cases handle name obj with hfail | ⟨handle',name',hroom,hok⟩
  · rw [hfail]
  · rw [hok]
    dsimp only
    rw [toNat_numTasks_addTask hroom]
    exact Nat.le_succ _

end Functions

section Runs

variable {s : State H}

/-- Every entry holds the times added, and entries not taken none. -/
structure Inv (s : State H) : Prop where
  /-- All entries. -/
  entry : ∀ i, EntryOk (s.obj.taskLoad i) (s.samples i)
  /-- Entries not taken. -/
  unused : ∀ i : Fin taskMax, s.obj.numTasks.toNat ≤ i.val → s.samples i = []

theorem inv_start : Inv (start H) := ⟨fun _ => entryOk_nil,fun _ _ => rfl⟩

/-- A registration takes an entry without times. -/
theorem Inv.register (h : Inv s) (handle : Option H) (name : Option (CString U8)) :
    Inv (step s (.registerTask handle name)) := by
  have hsamples : (step s (.registerTask handle name)).samples = s.samples := by
    funext i
    unfold step
    dsimp only
    split_ifs with htaken
    · exact (h.unused i htaken.2.ge).symm
    · rfl
  constructor
  · intro i
    rw [hsamples]
    change EntryOk ((PerfStats.registerTask handle name s.obj).2.taskLoad i) (s.samples i)
    rw [taskLoad_registerTask]
    exact h.entry i
  · intro i hi
    rw [hsamples]
    exact h.unused i ((numTasks_le_registerTask handle name s.obj).trans hi)

theorem Inv.update (h : Inv s) {getTaskLoad : Fin taskMax → Option H → Load}
    (hallowed : StepAllowed s (.loadUpdate getTaskLoad)) :
    Inv (step s (.loadUpdate getTaskLoad)) := by
  unfold step
  dsimp only
  split_ifs with henable
  · constructor
    · intro i
      rw [taskLoad_updateAll]
      dsimp only
      split_ifs with hi
      · obtain ⟨hle,hlt⟩ := hallowed henable i hi
        exact (h.entry i).add hle hlt
      · exact h.entry i
    · intro i hi
      exact (if_neg (Nat.not_lt.mpr hi)).trans (h.unused i hi)
  · exact h

theorem Inv.command (h : Inv s) (cmd prmSize cpuLoad : U32) (cpuStats : TaskStats) :
    Inv (step s (.command cmd prmSize cpuLoad cpuStats)) := by
  unfold step
  dsimp only
  cases hanswer : handler cmd prmSize cpuLoad cpuStats s.obj with
  | none => exact h
  | some answer =>
    dsimp only
    rw [obj_handler hanswer]
    split_ifs with hreset
    · exact ⟨fun _ => entryOk_nil,fun _ _ => rfl⟩
    · exact h

/-- Every allowed step keeps the invariant. -/
theorem Inv.step (h : Inv s) {e : Event H} (hallowed : StepAllowed s e) : Inv (step s e) := by
  cases e with
  | init created =>
    cases created with
    | true => exact ⟨fun _ => entryOk_nil,fun _ _ => rfl⟩
    | false => exact ⟨fun _ => entryOk_nil,fun _ _ => rfl⟩
  | registerTask handle name => exact h.register handle name
  | loadUpdate getTaskLoad => exact h.update hallowed
  | command cmd prmSize cpuLoad cpuStats => exact h.command cmd prmSize cpuLoad cpuStats

/-- The statistics answered are those measured. -/
theorem Inv.statsExact (h : Inv s) {cpuStats stats : TaskStats}
    (hstats : getTaskLoadAll s.obj cpuStats = some stats) : StatsExact s stats := by
  obtain ⟨hnum,hloads⟩ := getTaskLoadAll_eq_some hstats
  constructor
  · exact hnum
  · exact fun i hi => ((h.entry i).loadCalc_eq (hloads i hi)).1
  · exact fun i hi => ((h.entry i).loadCalc_eq (hloads i hi)).2

/-- A step is answered exactly under the condition. -/
theorem Inv.answered_iff (h : Inv s) (e : Event H) : StepAnswered s e ↔ StepMeasured s e := by
  cases e with
  | init created => exact Iff.rfl
  | registerTask handle name => exact Iff.rfl
  | loadUpdate getTaskLoad => exact Iff.rfl
  | command cmd prmSize cpuLoad cpuStats =>
    have hdefined : (∃ stats, getTaskLoadAll s.obj cpuStats = some stats) ↔
        ∀ i : Fin taskMax, i.val < s.obj.numTasks.toNat → ∃ r ∈ s.samples i, r.totalTime ≠ 0 := by
      rw [exists_getTaskLoadAll_iff]
      exact forall_congr' fun i => imp_congr_right fun _ => (h.entry i).exists_loadCalc_iff
    by_cases hquery : IsQuery cmd prmSize
    · constructor
      · rintro ⟨answer,hanswer,-⟩ -
        rw [handler_of_query hquery] at hanswer
        obtain ⟨stats,hstats,-⟩ := Option.map_eq_some_iff.mp hanswer
        exact hdefined.mp ⟨stats,hstats⟩
      · intro hmeasured
        obtain ⟨stats,hstats⟩ := hdefined.mpr (hmeasured hquery)
        refine ⟨⟨0,none,some stats,s.obj⟩,?_,fun _ => ⟨stats,rfl,h.statsExact hstats⟩⟩
        rw [handler_of_query hquery,hstats]
        rfl
    · obtain ⟨answer,hanswer⟩ := exists_handler_of_not_query cpuLoad cpuStats s.obj hquery
      exact iff_of_true ⟨answer,hanswer,fun h => absurd h hquery⟩ fun h => absurd h hquery

end Runs

/-- Along every run with loads as the scheduler gives them, the queries are
answered with what was measured exactly where some time was added for every
registered task since the last reset. -/
theorem task_load_defined_iff (es : List (Event H))
    (hallowed : Guarded step StepAllowed (start H) es) :
    Guarded step StepAnswered (start H) es ↔ Guarded step StepMeasured (start H) es :=
  guarded_iff_guarded_of_allowed (I := Inv) (fun _ _ h hA _ => h.step hA)
    (fun _ e h _ => h.answered_iff e) inv_start hallowed

/-- Statistics of a caller before a query. -/
def noStats : TaskStats := ⟨0,fun _ => ⟨⟨[],List.not_mem_nil⟩,0⟩⟩

/-- Name of the receive task of the remote service, `"REMOTE_SRV"`. -/
def remoteSrvName : CString U8 :=
  ⟨[0x52,0x45,0x4D,0x4F,0x54,0x45,0x5F,0x53,0x52,0x56],by decide⟩

/-- A task that ran a quarter of the time, and a query. -/
def oneTask : List (Event ℕ) :=
  [.init true,.registerTask (some 1) (some remoteSrvName),.loadUpdate fun _ _ => ⟨4,1⟩,
    .command cmdGetCpuTaskStats taskStatsSize 0 noStats]

theorem task_load_defined_iff_oneTask : Guarded step StepAnswered (start ℕ) oneTask := by
  have hallowed : Guarded step StepAllowed (start ℕ) oneTask := by
    refine ⟨trivial,trivial,fun _ => ?_,trivial,trivial⟩
    decide
  have hmeasured : Guarded step StepMeasured (start ℕ) oneTask := by
    refine ⟨trivial,trivial,trivial,fun _ => ?_,trivial⟩
    decide
  exact (task_load_defined_iff oneTask hallowed).mpr hmeasured

/-- A query between the registration of a task and the next update divides by
zero. -/
theorem query_before_update_divides_by_zero :
    Guarded step StepAllowed (start ℕ)
        [.init true,.registerTask (some 1) (some remoteSrvName),
          .command cmdGetCpuTaskStats taskStatsSize 0 noStats] ∧
      ¬ Guarded step StepAnswered (start ℕ)
        [.init true,.registerTask (some 1) (some remoteSrvName),
          .command cmdGetCpuTaskStats taskStatsSize 0 noStats] := by
  refine ⟨⟨trivial,trivial,trivial,trivial⟩,?_⟩
  rintro ⟨-,-,⟨answer,hanswer,-⟩,-⟩
  have hnone : handler cmdGetCpuTaskStats taskStatsSize 0 noStats
      (registerTask (some 1) (some remoteSrvName) (resetLoadCalcAll (Obj.zero : Obj ℕ))).2 =
        none := rfl
  change handler _ _ _ _ (registerTask _ _ (resetLoadCalcAll Obj.zero)).2 = _ at hanswer
  rw [hnone] at hanswer
  cases hanswer

end EthernetFirmware.PerfStats
