import Mathlib.Data.Fintype.Pi
import Mathlib.Data.List.FinRange
import EthernetFirmware.BitMasks
import EthernetFirmware.GuardedRuns
import EthernetFirmware.RemoteConfig

/-!
# Modules of the TSN stack

The stack runs its modules, UNICONF first, in threads with static stacks.
An entry of the module table has a handle of the thread, a flag that asks it
to stop, and a flag that is set by the first start. A start from the
initialisation passes over the modules whose flag is set; the recovery of
the switch stops a module and starts it again. An assertion that fails does
not return.
-/

namespace EthernetFirmware.TsnModules

open Function BitMasks RemoteConfig GuardedRuns

/-- What changes in an entry of `gModCfgTable`. -/
structure ModuleCfg where
  /-- The thread is asked to stop, or there is none. -/
  stopFlag : Bool
  /-- The module was started. -/
  enable : Bool
  /-- There is a handle of a thread. -/
  hTaskHandle : Bool
  deriving DecidableEq

/-- The functions of an entry. -/
structure ModuleFxns where
  /-- It has an `onModuleDBInit`. -/
  onModuleDBInit : Bool
  /-- It has an `onModuleRunner`. -/
  onModuleRunner : Bool

/-- What is done to a module. -/
inductive Act (n : ℕ) where
  /-- Its thread is created. -/
  | created (i : Fin n)
  /-- Its thread is joined. -/
  | joined (i : Fin n)
  /-- Its data base is initialised. -/
  | dbInit (i : Fin n)
  deriving DecidableEq

/-- `EthFwTsn_Obj` with the module table. -/
structure TsnObj (n : ℕ) where
  /-- The stack was initialised. -/
  tsnInit : Bool
  /-- There is a logging task. -/
  hLogTask : Bool
  /-- There is a mutex for it. -/
  hLogMutex : Bool
  /-- There is a semaphore for UNICONF. -/
  ucReadySem : Bool
  /-- Network devices in use. -/
  numNetDevs : ℕ
  /-- `gModCfgTable`. -/
  modCfgTable : Fin n → ModuleCfg
  /-- What was done so far, the latest first. -/
  acts : List (Act n)

/-- What the calls made on the way return. -/
structure Outcomes (n : ℕ) where
  /-- The logging task is created. -/
  logTask : Bool
  /-- `cb_lld_init_devs_table`. -/
  devsTable : Status
  /-- `CB_SEM_INIT`. -/
  semInit : Status
  /-- `CB_SEM_DESTROY` clears the handle. -/
  semCleared : Bool
  /-- `CB_THREAD_CREATE`. -/
  threadCreate : Fin n → Status
  /-- `CB_SEM_WAIT`. -/
  semWait : Status
  /-- `uniconf_ready`. -/
  uniconfReady : Status
  /-- `uc_dbal_open` gives a handle. -/
  dbalOpen : Bool
  /-- `onModuleDBInit`. -/
  dbInit : Fin n → Status

variable {n : ℕ}

/-- Set an entry of the table. -/
def setModule (s : TsnObj n) (i : Fin n) (m : ModuleCfg) : TsnObj n :=
  { s with modCfgTable := update s.modCfgTable i m }

/-- Note what is done. -/
def note (s : TsnObj n) (as : List (Act n)) : TsnObj n := { s with acts := as ++ s.acts }

section Functions

variable (fxns : Fin n → ModuleFxns) (o : Outcomes n)

/-- The loop of `EthFwTsn_initDb`: it ends at the first module that fails. -/
def dbInits : List (Fin n) → Status → Status × List (Act n)
  | [], status => (status,[])
  | i :: l, status =>
    if (fxns i).onModuleDBInit then
      if o.dbInit i = sok then
        let r := dbInits l sok
        (r.1,r.2 ++ [.dbInit i])
      else (o.dbInit i,[.dbInit i])
    else dbInits l status

/-- `EthFwTsn_initDb`, with the data bases it initialises. -/
def initDb : Status × List (Act n) :=
  if o.semWait = sok then
    if o.uniconfReady = sok then
      if o.dbalOpen then dbInits fxns o (List.finRange n) sok else (efail,[])
    else (o.uniconfReady,[])
  else (o.semWait,[])

/-- `EthFwTsn_startModTask`: without a status when its assertion fails. -/
def startModTask (s : TsnObj n) (i : Fin n) : Option Status × TsnObj n :=
  if s.ucReadySem && (fxns i).onModuleRunner then
    if o.threadCreate i = sok then
      let s' := note (setModule s i ⟨false,true,true⟩) [.created i]
      -- `ETHFWTSN_UNICONF_TASK_IDX` is the first index.
      if i.val = 0 then
        let r := initDb fxns o
        (some r.1,note s' r.2)
      else (some sok,s')
    else (none,setModule s i { s.modCfgTable i with stopFlag := true, enable := false })
  else (none,s)

/-- The loop of `EthFwTsn_startMod`: it starts the modules that never were,
and keeps the status of the last one. -/
def startMods : List (Fin n) → Status → TsnObj n → Option Status × TsnObj n
  | [], status, s => (some status,s)
  | i :: l, status, s =>
    if (s.modCfgTable i).enable then startMods l status s
    else
      match startModTask fxns o s i with
      | (some status',s') => startMods l status' s'
      | (none,s') => (none,s')

/-- `EthFwTsn_startMod`. -/
def startMod (s : TsnObj n) : Option Status × TsnObj n :=
  let status := if o.semInit = sok then sok else efail
  let s := { s with ucReadySem := s.ucReadySem || decide (o.semInit = sok) }
  if s.tsnInit then startMods fxns o (List.finRange n) status s else (some status,s)

/-- Number of the ports in a mask. -/
def portCnt (numMacPorts : ℕ) (portMask : U32) : ℕ :=
  ((List.range numMacPorts).filter (isSet portMask)).length

/-- `EthFwTsn_initTimeSyncPtp`. -/
def initTimeSyncPtp (numMacPorts : ℕ) (portMask : U32) (s : TsnObj n) :
    Option Status × TsnObj n :=
  let s := { s with numNetDevs := portCnt numMacPorts portMask }
  if s.numNetDevs = 0 then (some sok,s)
  else if o.devsTable = sok then startMod fxns o s
  else (some efail,s)

/-- `EthFwTsn_startModule`. -/
def startModule (i : ℕ) (s : TsnObj n) : Option Status × TsnObj n :=
  if h : i < n then
    if (s.modCfgTable ⟨i,h⟩).enable && (s.modCfgTable ⟨i,h⟩).stopFlag then
      startModTask fxns o s ⟨i,h⟩
    else (some sok,s)
  else (some efail,s)

/-- `EthFwTsn_stopModule`. -/
def stopModule (i : ℕ) (s : TsnObj n) : TsnObj n :=
  if h : i < n then
    if (s.modCfgTable ⟨i,h⟩).hTaskHandle then
      note (setModule s ⟨i,h⟩ { s.modCfgTable ⟨i,h⟩ with stopFlag := true, hTaskHandle := false })
        [.joined ⟨i,h⟩]
    else s
  else s

/-- `EthFwTsn_restartTsnModule`: what the initialisation of the data base
returns is not looked at. -/
def restartTsnModule (i : Fin n) (s : TsnObj n) : Option Status × TsnObj n :=
  if o.uniconfReady = sok then
    if o.dbalOpen then
      if (s.modCfgTable i).enable && (fxns i).onModuleDBInit then
        startModule fxns o i.val (note s [.dbInit i])
      else (some efail,s)
    else (some efail,s)
  else (some o.uniconfReady,s)

/-- `EthFwTsn_init`, less the pulse it programs. -/
def init (s : TsnObj n) : Option Status × TsnObj n :=
  if s.tsnInit then (some sok,s)
  else
    let s := { s with hLogMutex := true, hLogTask := o.logTask }
    if o.logTask then (some sok,{ s with tsnInit := true }) else (none,s)

/-- `EthFwTsn_deInit`. -/
def deInit (s : TsnObj n) : TsnObj n :=
  let s' := { s with
    hLogTask := false
    hLogMutex := false
    ucReadySem := s.ucReadySem && !o.semCleared }
  let s' := if s.tsnInit then (List.range n).foldl (fun t i => stopModule i t) s' else s'
  { s' with tsnInit := false }

end Functions

/-- Calls on the stack, with what the calls they make return. -/
inductive Event (n : ℕ) where
  | init (o : Outcomes n)
  | deInit (o : Outcomes n)
  | initTimeSyncPtp (portMask : U32) (o : Outcomes n)
  | startModule (moduleIdx : ℕ) (o : Outcomes n)
  | stopModule (moduleIdx : ℕ)
  | restartTsnModule (moduleIdx : Fin n) (o : Outcomes n)

/-- The stack of a board: the functions of its modules and its ports. -/
structure Board (n : ℕ) where
  /-- Functions of the modules. -/
  fxns : Fin n → ModuleFxns
  /-- `ETHFW_TSN_CFG_NUM_MAC_PORTS`. -/
  numMacPorts : ℕ

/-- What a call returns, and the state it leaves. -/
def call (b : Board n) (s : TsnObj n) : Event n → Option Status × TsnObj n
  | .init o => init o s
  | .deInit o => (some sok,deInit o s)
  | .initTimeSyncPtp portMask o => initTimeSyncPtp b.fxns o b.numMacPorts portMask s
  | .startModule i o => startModule b.fxns o i s
  | .stopModule i => (some sok,stopModule i s)
  | .restartTsnModule i o => restartTsnModule b.fxns o i s

/-- State after a call. -/
def step (b : Board n) (s : TsnObj n) (e : Event n) : TsnObj n := (call b s e).2

/-- The table at start: no threads, and some modules marked as started. -/
def startUp (enable : Fin n → Bool) : TsnObj n where
  tsnInit := false
  hLogTask := false
  hLogMutex := false
  ucReadySem := false
  numNetDevs := 0
  modCfgTable := fun i => ⟨true,enable i,false⟩
  acts := []

/-- Number of a module's threads: those created and not joined. -/
def HasThreads (s : TsnObj n) (i : Fin n) (k : ℕ) : Prop :=
  s.acts.count (.created i) = s.acts.count (.joined i) + k

/-- An entry of the table tells how its module is. -/
structure ModuleOk (s : TsnObj n) (i : Fin n) : Prop where
  /-- The flag that asks the thread to stop is down exactly while there is a thread. -/
  stopFlag : (s.modCfgTable i).stopFlag = !(s.modCfgTable i).hTaskHandle
  /-- A module with a thread was started. -/
  enable : (s.modCfgTable i).hTaskHandle = true → (s.modCfgTable i).enable = true
  /-- There is one thread while there is a handle, and none without one. -/
  threads : HasThreads s i (if (s.modCfgTable i).hTaskHandle then 1 else 0)

/-- So does every entry. -/
def ModulesOk (s : TsnObj n) : Prop := ∀ i, ModuleOk s i

section Calls

variable {fxns : Fin n → ModuleFxns} {o : Outcomes n} {s s' : TsnObj n} {i j : Fin n}
  {as : List (Act n)}

/-- The initialisation of data bases is not about threads. -/
theorem count_dbInits {l : List (Fin n)} {st : Status} :
    (dbInits fxns o l st).2.count (.created i) = 0 ∧
      (dbInits fxns o l st).2.count (.joined i) = 0 := by
  induction l generalizing st with
  | nil => exact ⟨rfl,rfl⟩
  | cons j l ih =>
    unfold dbInits
    split
    · split
      · simp [List.count_append,ih]
      · simp
    · exact ih

theorem count_initDb : (initDb fxns o).2.count (.created i) = 0 ∧
    (initDb fxns o).2.count (.joined i) = 0 := by
  unfold initDb
  split
  · split
    · split
      · exact count_dbInits
      · exact ⟨rfl,rfl⟩
    · exact ⟨rfl,rfl⟩
  · exact ⟨rfl,rfl⟩

/-- A module is as before when its entry and the threads created and joined
are. -/
theorem ModuleOk.congr (h : ModuleOk s i) (ht : s'.modCfgTable i = s.modCfgTable i)
    (hc : s'.acts.count (.created i) = s.acts.count (.created i))
    (hj : s'.acts.count (.joined i) = s.acts.count (.joined i)) : ModuleOk s' i := by
  refine ⟨?_,?_,?_⟩
  · rw [ht]
    exact h.stopFlag
  · rw [ht]
    exact h.enable
  · unfold HasThreads
    rw [ht,hc,hj]
    exact h.threads

/-- A start of a module without a thread: it runs, or an assertion fails. -/
inductive Started (s : TsnObj n) (i : Fin n) : Option Status × TsnObj n → Prop where
  /-- The module has a thread. -/
  | runs (st : Status) (as : List (Act n)) (hc : ∀ j, as.count (.created j) = 0)
      (hj : ∀ j, as.count (.joined j) = 0) :
      Started s i (some st,note (note (setModule s i ⟨false,true,true⟩) [.created i]) as)
  /-- There is no semaphore or no function to run. -/
  | refused : Started s i (none,s)
  /-- No thread could be created. -/
  | failed : Started s i
      (none,setModule s i { s.modCfgTable i with stopFlag := true, enable := false })

theorem started : Started s i (startModTask fxns o s i) := by
  unfold startModTask
  split
  · split
    · dsimp only
      split
      · exact .runs _ _ (fun j => count_initDb.1) fun j => count_initDb.2
      · exact .runs sok [] (fun _ => rfl) fun _ => rfl
    · exact .failed
  · exact .refused

/-- The start of a module that has no thread keeps the table right. -/
theorem Started.modulesOk {r : Option Status × TsnObj n} (h : Started s i r)
    (hs : ModulesOk s) (hno : (s.modCfgTable i).hTaskHandle = false) : ModulesOk r.2 := by
  intro j
  have hthreads := (hs i).threads
  cases h with
  | runs st as hc hj =>
    by_cases hji : j = i
    · subst hji
      refine ⟨?_,fun _ => ?_,?_⟩
      · simp [note,setModule]
      · simp [note,setModule]
      · unfold HasThreads at hthreads ⊢
        rw [hno] at hthreads
        simp only [note,setModule,update_self,List.count_append,hc,hj,if_true]
        simp only [Bool.false_eq_true,if_false] at hthreads
        simp [hthreads]
        omega
    · refine (hs j).congr ?_ ?_ ?_
      · simp [note,setModule,update_of_ne hji]
      · have hne : (Act.created i == Act.created j) = false := by simp [Ne.symm hji]
        simp [note,setModule,List.count_append,hc,List.count_cons,hne]
      · simp [note,setModule,List.count_append,hj]
  | refused => exact hs j
  | failed =>
    by_cases hji : j = i
    · subst hji
      refine ⟨?_,fun h => ?_,?_⟩
      · simp [setModule,hno]
      · simp [setModule,hno] at h
      · unfold HasThreads at hthreads ⊢
        rw [hno] at hthreads
        simpa [setModule,hno] using hthreads
    · exact (hs j).congr (update_of_ne hji ..) rfl rfl

theorem ModulesOk.idle (hs : ModulesOk s) (h : (s.modCfgTable i).enable = false) :
    (s.modCfgTable i).hTaskHandle = false := by
  by_contra hno
  have hen := (hs i).enable (by simpa using hno)
  rw [h] at hen
  exact Bool.false_ne_true hen

theorem ModulesOk.stopped (hs : ModulesOk s) (h : (s.modCfgTable i).stopFlag = true) :
    (s.modCfgTable i).hTaskHandle = false := by
  have hstop := (hs i).stopFlag
  rw [h] at hstop
  simpa using hstop.symm

/-- Calls that leave table and threads alone keep the table right. -/
theorem ModulesOk.congr (hs : ModulesOk s) (ht : s'.modCfgTable = s.modCfgTable)
    (ha : s'.acts = s.acts) : ModulesOk s' :=
  fun i => (hs i).congr (congrFun ht i) (by rw [ha]) (by rw [ha])

/-- The loop over the modules starts only modules without a thread. -/
theorem startMods_modulesOk {l : List (Fin n)} {st : Status} (hs : ModulesOk s) :
    ModulesOk (startMods fxns o l st s).2 := by
  induction l generalizing st s with
  | nil => exact hs
  | cons i l ih =>
    unfold startMods
    split
    · exact ih hs
    · next hen =>
      have hnext : ModulesOk (startModTask fxns o s i).2 :=
        started.modulesOk hs (hs.idle (by simpa using hen))
      split
      · next st' s' heq =>
        rw [heq] at hnext
        exact ih hnext
      · next s' heq =>
        rw [heq] at hnext
        exact hnext

theorem startModule_modulesOk {k : ℕ} (hs : ModulesOk s) :
    ModulesOk (startModule fxns o k s).2 := by
  unfold startModule
  split
  · next hk =>
    split
    · next hflags =>
      rw [Bool.and_eq_true] at hflags
      exact started.modulesOk hs (hs.stopped hflags.2)
    · exact hs
  · exact hs

theorem stopModule_modulesOk {k : ℕ} (hs : ModulesOk s) : ModulesOk (stopModule k s) := by
  unfold stopModule
  split
  · next hk =>
    split
    · next hrun =>
      intro j
      have hthreads := (hs j).threads
      by_cases hj : j = ⟨k,hk⟩
      · subst hj
        refine ⟨?_,fun h => ?_,?_⟩
        · simp [note,setModule]
        · simp [note,setModule] at h
        · unfold HasThreads at hthreads ⊢
          rw [hrun] at hthreads
          simp only [if_true] at hthreads
          simp [note,setModule,hthreads]
      · refine (hs j).congr ?_ ?_ ?_
        · simp [note,setModule,update_of_ne hj]
        · simp [note,setModule]
        · have hne : (Act.joined ⟨k,hk⟩ == Act.joined j) = false := by simp [Ne.symm hj]
          simp [note,setModule,List.count_cons,hne]
    · exact hs
  · exact hs

theorem stopModules_modulesOk {l : List ℕ} (hs : ModulesOk s) :
    ModulesOk (l.foldl (fun t k => stopModule k t) s) := by
  induction l generalizing s with
  | nil => exact hs
  | cons k l ih => exact ih (stopModule_modulesOk hs)

theorem note_dbInit_modulesOk (hs : ModulesOk s) : ModulesOk (note s [.dbInit i]) :=
  fun j => (hs j).congr rfl (by simp [note]) (by simp [note])

end Calls

/-- Every call keeps the table right. -/
theorem step_modulesOk (b : Board n) {s : TsnObj n} (hs : ModulesOk s) (e : Event n) :
    ModulesOk (step b s e) := by
  cases e with
  | init o =>
    unfold step call init
    dsimp only
    split
    · exact hs
    · split <;> exact hs.congr rfl rfl
  | deInit o =>
    unfold step call deInit
    dsimp only
    have hcleared : ModulesOk { s with
        hLogTask := false
        hLogMutex := false
        ucReadySem := s.ucReadySem && !o.semCleared } := hs.congr rfl rfl
    split
    · exact (stopModules_modulesOk hcleared).congr rfl rfl
    · exact hcleared.congr rfl rfl
  | initTimeSyncPtp portMask o =>
    unfold step call initTimeSyncPtp startMod
    dsimp only
    split
    · exact hs.congr rfl rfl
    · split
      · split
        · exact startMods_modulesOk (hs.congr rfl rfl)
        · exact hs.congr rfl rfl
      · exact hs.congr rfl rfl
  | startModule k o => exact startModule_modulesOk hs
  | stopModule k => exact stopModule_modulesOk hs
  | restartTsnModule i o =>
    unfold step call restartTsnModule
    dsimp only
    split
    · split
      · split
        · exact startModule_modulesOk (note_dbInit_modulesOk hs)
        · exact hs
      · exact hs
    · exact hs

theorem startUp_modulesOk (enable : Fin n → Bool) : ModulesOk (startUp enable) := by
  intro i
  refine ⟨rfl,fun h => ?_,rfl⟩
  contradiction

/-- In every run of calls, with whatever the calls they make return, every
module has one thread while its entry has a handle and none otherwise: no
thread is created on the stack of another one that runs, and none is lost. -/
theorem one_thread_each (b : Board n) (enable : Fin n → Bool) (events : List (Event n)) :
    Along (step b) ModulesOk (startUp enable) events :=
  along_of_guarded (fun _ e hs _ => step_modulesOk b hs e) (startUp_modulesOk enable)
    (guarded_true _ _)

/-- Calls other than those that start a single module. -/
def StartsNone : Event n → Prop
  | .startModule _ _ => False
  | .restartTsnModule _ _ => False
  | _ => True

/-- Every module was started once and has no thread now. -/
def AllStopped (s : TsnObj n) : Prop :=
  ∀ i, (s.modCfgTable i).enable = true ∧ (s.modCfgTable i).hTaskHandle = false

/-- An initialisation of the time synchronisation reports success when the
table of devices and the semaphore are set up. -/
def ReportsSuccess (b : Board n) (s : TsnObj n) : Event n → Prop
  | .initTimeSyncPtp portMask o => o.devsTable = sok → o.semInit = sok →
    (call b s (.initTimeSyncPtp portMask o)).1 = some sok
  | _ => True

section Stopped

variable {fxns : Fin n → ModuleFxns} {o : Outcomes n} {s s' : TsnObj n} {i : Fin n} {b : Board n}

/-- A stopped module stays so when it is stopped or another one is. -/
theorem stopModule_entry (k : ℕ) (i : Fin n) : (stopModule k s).modCfgTable i =
    if i.val = k ∧ (s.modCfgTable i).hTaskHandle = true then
      { s.modCfgTable i with stopFlag := true, hTaskHandle := false }
    else s.modCfgTable i := by
  unfold stopModule
  by_cases hk : k < n
  · rw [dif_pos hk]
    by_cases hi : i.val = k
    · subst hi
      by_cases hrun : (s.modCfgTable i).hTaskHandle = true
      · have hboth : i.val = i.val ∧ (s.modCfgTable i).hTaskHandle = true := ⟨rfl,hrun⟩
        rw [if_pos hboth,if_pos hrun]
        exact update_self ..
      · have hnot : ¬ (i.val = i.val ∧ (s.modCfgTable i).hTaskHandle = true) :=
          fun h => hrun h.2
        rw [if_neg hnot,if_neg hrun]
    · have hnot : ¬ (i.val = k ∧ (s.modCfgTable i).hTaskHandle = true) := fun h => hi h.1
      have hne : i ≠ ⟨k,hk⟩ := fun h => hi (congrArg Fin.val h)
      rw [if_neg hnot]
      split
      · exact update_of_ne hne ..
      · rfl
  · have hnot : ¬ (i.val = k ∧ (s.modCfgTable i).hTaskHandle = true) :=
      fun h => hk (h.1 ▸ i.isLt)
    rw [dif_neg hk,if_neg hnot]

/-- Stopping the listed modules leaves those without a thread, and every
module as started as it was. -/
theorem stopModules_entry (l : List ℕ) :
    ((l.foldl (fun t k => stopModule k t) s).modCfgTable i).enable = (s.modCfgTable i).enable ∧
      ((i.val ∈ l ∨ (s.modCfgTable i).hTaskHandle = false) →
        ((l.foldl (fun t k => stopModule k t) s).modCfgTable i).hTaskHandle = false) := by
  induction l generalizing s with
  | nil => exact ⟨rfl,fun h => h.resolve_left List.not_mem_nil⟩
  | cons k l ih =>
    obtain ⟨hen,hno⟩ := ih (s := stopModule k s)
    rw [List.foldl_cons]
    refine ⟨?_,fun h => hno ?_⟩
    · rw [hen,stopModule_entry]
      split <;> rfl
    · rw [stopModule_entry]
      by_cases hrun : (s.modCfgTable i).hTaskHandle = true
      · rcases h with h | h
        · rcases List.mem_cons.mp h with rfl | h
          · exact Or.inr (by rw [if_pos ⟨rfl,hrun⟩])
          · exact Or.inl h
        · rw [h] at hrun
          contradiction
      · refine Or.inr ?_
        rw [if_neg fun h' => hrun h'.2]
        simpa using hrun

/-- The loop over the modules passes over those that were started. -/
theorem startMods_all {l : List (Fin n)} {st : Status}
    (h : ∀ i, (s.modCfgTable i).enable = true) :
    startMods fxns o l st s = (some st,s) := by
  induction l with
  | nil => rfl
  | cons i l ih =>
    unfold startMods
    rw [if_pos (h i)]
    exact ih

/-- Once all modules are stopped, only a start of a single one changes
that. -/
theorem step_allStopped (h : AllStopped s) {e : Event n} (he : StartsNone e) :
    AllStopped (step b s e) ∧ ReportsSuccess b s e := by
  cases e with
  | init o =>
    refine ⟨?_,trivial⟩
    unfold step call init
    dsimp only
    split
    · exact h
    · split <;> exact h
  | deInit o =>
    refine ⟨fun i => ?_,trivial⟩
    unfold step call deInit
    dsimp only
    split
    · obtain ⟨hen,hno⟩ := stopModules_entry (i := i) (s := { s with
        hLogTask := false
        hLogMutex := false
        ucReadySem := s.ucReadySem && !o.semCleared }) (List.range n)
      exact ⟨hen.trans (h i).1,hno (Or.inr (h i).2)⟩
    · exact h i
  | initTimeSyncPtp portMask o =>
    have hpass (st : Status) (sem : Bool) (k : ℕ) :
        startMods b.fxns o (List.finRange n) st { s with ucReadySem := sem, numNetDevs := k } =
          (some st,{ s with ucReadySem := sem, numNetDevs := k }) :=
      startMods_all fun i => (h i).1
    unfold ReportsSuccess step call initTimeSyncPtp startMod
    dsimp only
    split
    · exact ⟨h,fun _ _ => rfl⟩
    · split
      · split
        · rw [hpass]
          refine ⟨h,fun _ hsem => ?_⟩
          rw [if_pos hsem]
        · refine ⟨h,fun _ hsem => ?_⟩
          rw [if_pos hsem]
      · next hdevs => exact ⟨h,fun hok => absurd hok hdevs⟩
  | startModule k o => exact he.elim
  | stopModule k =>
    refine ⟨fun i => ?_,trivial⟩
    change ((stopModule k s).modCfgTable i).enable = true ∧
      ((stopModule k s).modCfgTable i).hTaskHandle = false
    rw [stopModule_entry,if_neg fun hrun => ?_]
    · exact h i
    · rw [(h i).2] at hrun
      exact Bool.false_ne_true hrun.2
  | restartTsnModule i o => exact he.elim

/-- The end of the stack stops every module. -/
theorem deInit_allStopped (hinit : s.tsnInit = true)
    (hall : ∀ i, (s.modCfgTable i).enable = true) : AllStopped (deInit o s) := by
  intro i
  unfold deInit
  dsimp only
  rw [if_pos hinit]
  obtain ⟨hen,hno⟩ := stopModules_entry (i := i) (s := { s with
    hLogTask := false
    hLogMutex := false
    ucReadySem := s.ucReadySem && !o.semCleared }) (List.range n)
  exact ⟨hen.trans (hall i),hno (Or.inl (List.mem_range.mpr i.isLt))⟩

end Stopped

/-- A stack that was started and ended does not come up again: whatever
initialisations follow, they report success, and no module has a thread
until one is started by itself. -/
theorem stopped_for_good (b : Board n) (s : TsnObj n) (hinit : s.tsnInit = true)
    (hall : ∀ i, (s.modCfgTable i).enable = true) (o : Outcomes n) (events : List (Event n))
    (hnone : ∀ e ∈ events, StartsNone e) :
    Along (step b) AllStopped (step b s (.deInit o)) events ∧
      Guarded (step b) (ReportsSuccess b) (step b s (.deInit o)) events := by
  have hstopped : AllStopped (step b s (.deInit o)) := deInit_allStopped hinit hall
  have hguard : Guarded (step b) (fun _ e => StartsNone e) (step b s (.deInit o)) events :=
    guarded_const_iff.mpr hnone
  exact ⟨along_of_guarded (fun _ _ h he => (step_allStopped h he).1) hstopped hguard,
    guarded_of_invariant (fun _ _ h he => (step_allStopped h he).1)
      (fun _ _ h he => (step_allStopped (b := b) h he).2) hstopped hguard⟩

/-- A board of two modules and one port. -/
def twoModules : Board 2 where
  fxns := fun _ => ⟨true,true⟩
  numMacPorts := 1

/-- Outcomes of calls that all go well. -/
def allWell : Outcomes n where
  logTask := true
  devsTable := sok
  semInit := sok
  semCleared := true
  threadCreate := fun _ => sok
  semWait := sok
  uniconfReady := sok
  dbalOpen := true
  dbInit := fun _ => sok

/-- The stack of two modules after it came up. -/
def upAndRunning : TsnObj 2 :=
  [Event.init allWell,.initTimeSyncPtp 1 allWell].foldl (step twoModules) (startUp fun _ => false)

/-- Initialised once more, the two modules have no threads, yet the time
synchronisation is reported to be up. -/
theorem stopped_for_good_two_modules :
    Along (step twoModules) AllStopped (step twoModules upAndRunning (.deInit allWell))
        [.init allWell,.initTimeSyncPtp 1 allWell] ∧
      Guarded (step twoModules) (ReportsSuccess twoModules)
        (step twoModules upAndRunning (.deInit allWell))
        [.init allWell,.initTimeSyncPtp 1 allWell] := by
  have hall : ∀ i, (upAndRunning.modCfgTable i).enable = true := by decide
  have hnone : ∀ e ∈ [Event.init allWell,.initTimeSyncPtp 1 allWell], StartsNone (n := 2) e := by
    simp [StartsNone]
  exact stopped_for_good twoModules upAndRunning (by decide) hall allWell _ hnone

end EthernetFirmware.TsnModules
