import Mathlib.Algebra.BigOperators.Group.List.Basic
import Mathlib.Algebra.Order.BigOperators.Group.List
import Mathlib.Algebra.Order.Group.Nat
import Mathlib.Logic.Function.Basic
import Mathlib.Logic.Relation
import EthernetFirmware.RemoteConfig
import EthernetFirmware.GuardedRuns

/-!
# Start-up barrier of the CPUs

The master and the slaves meet through one cell of shared memory for each
slave. The run is that of the CPUs' single reads and writes in any order.
Seen from one slave, master, slave and cell form a link that only moves
forward; the barrier follows from the links.
-/

namespace EthernetFirmware.LogCpuSync

open Function GuardedRuns RemoteConfig

/-- `APP_LOG_MAX_CPUS`. -/
def maxCpus : ℕ := 16

/-- `APP_LOG_CPU_SYNC_STATE_INVALID`. -/
def stateInvalid : U32 := 0#32

/-- `APP_LOG_CPU_SYNC_STATE_INIT_DONE`. -/
def stateInitDone : U32 := 1#32

/-- `APP_LOG_CPU_SYNC_STATE_TEST_INIT_DONE`. -/
def stateTestInitDone : U32 := 2#32

/-- `APP_LOG_CPU_SYNC_STATE_CONFIRM_INIT_DONE`. -/
def stateConfirmInitDone : U32 := 3#32

/-- `APP_LOG_CPU_SYNC_STATE_RUN`. -/
def stateRun : U32 := 4#32

/-- The arguments of `appLogCpuSyncInit` that all CPUs share. -/
structure Cpus where
  /-- `master_cpu_id`. -/
  masterCpuId : ℕ
  /-- `sync_cpu_id_list`. -/
  syncCpuIdList : List ℕ
  /-- No CPU is listed twice. -/
  nodup : syncCpuIdList.Nodup
  /-- The shared memory has a cell for each CPU. -/
  lt_max : ∀ cpu ∈ syncCpuIdList, cpu < maxCpus

/-- Where the master is in `appLogCpuSyncInit`. A list holds the CPUs the
current loop has still to visit. -/
inductive MasterPhase where
  /-- Before the call. -/
  | outside
  /-- At the head of the first loop. -/
  | syncSlaves (todo : List ℕ)
  /-- Before a read in `appLogCpuSyncWithSlave`. -/
  | awaitConfirm (slaveCpuId : ℕ) (todo : List ℕ)
  /-- Before the write that answers a slave which has just started. -/
  | testAgain (slaveCpuId : ℕ) (todo : List ℕ)
  /-- At the head of the second loop. -/
  | startSlaves (todo : List ℕ)
  /-- After the call. -/
  | returned
  deriving DecidableEq

/-- Where a slave is in `appLogCpuSyncWithMaster`. -/
inductive SlavePhase where
  /-- Before the call. -/
  | outside
  /-- Before the first write. -/
  | announce
  /-- Before a read of the first loop. -/
  | awaitTest
  /-- Before the second write. -/
  | confirm
  /-- Before a read of the second loop. -/
  | awaitRun
  /-- After the call. -/
  | returned
  deriving DecidableEq

/-- Shared cells and the CPUs' places in the program. -/
structure State where
  /-- `log_cpu_sync_state` of each CPU. -/
  cells : ℕ → U32
  /-- Master. -/
  master : MasterPhase
  /-- Slaves. -/
  slave : ℕ → SlavePhase

/-- `appLogSetCpuSyncState` with valid shared memory. -/
def setCpuSyncState (cells : ℕ → U32) (cpuId : ℕ) (state : U32) : ℕ → U32 :=
  if cpuId < maxCpus then update cells cpuId state else cells

/-- `appLogGetCpuSyncState` with valid shared memory. -/
def getCpuSyncState (cells : ℕ → U32) (cpuId : ℕ) : U32 :=
  if cpuId < maxCpus then cells cpuId else stateInvalid

/-- The next read, write, loop test or entry of the master. -/
def masterStep (k : Cpus) (s : State) : State :=
  match s.master with
  | .outside => { s with master := .syncSlaves k.syncCpuIdList }
  | .syncSlaves [] => { s with master := .startSlaves k.syncCpuIdList }
  | .syncSlaves (cpu :: todo) =>
    if cpu ≠ k.masterCpuId then
      { s with
        cells := setCpuSyncState s.cells cpu stateTestInitDone
        master := .awaitConfirm cpu todo }
    else { s with master := .syncSlaves todo }
  | .awaitConfirm cpu todo =>
    let state := getCpuSyncState s.cells cpu
    if state = stateInitDone then { s with master := .testAgain cpu todo }
    else if state ≠ stateConfirmInitDone then s
    else { s with master := .syncSlaves todo }
  | .testAgain cpu todo =>
    { s with
      cells := setCpuSyncState s.cells cpu stateTestInitDone
      master := .awaitConfirm cpu todo }
  | .startSlaves [] => { s with master := .returned }
  | .startSlaves (cpu :: todo) =>
    if cpu ≠ k.masterCpuId then
      { s with
        cells := setCpuSyncState s.cells cpu stateRun
        master := .startSlaves todo }
    else { s with master := .startSlaves todo }
  | .returned => s

/-- The next read, write or entry of a slave. -/
def slaveStep (s : State) (self : ℕ) : State :=
  match s.slave self with
  | .outside => { s with slave := update s.slave self .announce }
  | .announce =>
    { s with
      cells := setCpuSyncState s.cells self stateInitDone
      slave := update s.slave self .awaitTest }
  | .awaitTest =>
    if getCpuSyncState s.cells self ≠ stateTestInitDone then s
    else { s with slave := update s.slave self .confirm }
  | .confirm =>
    { s with
      cells := setCpuSyncState s.cells self stateConfirmInitDone
      slave := update s.slave self .awaitRun }
  | .awaitRun =>
    if getCpuSyncState s.cells self ≠ stateRun then s
    else { s with slave := update s.slave self .returned }
  | .returned => s

/-- `appLogCpuSyncInit` goes on by one step on a CPU. A CPU that is neither
the master nor listed does not call it. -/
def step (k : Cpus) (s : State) (cpu : ℕ) : State :=
  if cpu = k.masterCpuId then masterStep k s
  else if cpu ∈ k.syncCpuIdList then slaveStep s cpu
  else s

/-- Before the calls; the cells hold anything. -/
def start (cells : ℕ → U32) : State := ⟨cells,.outside,fun _ => .outside⟩

/-- A listed CPU that is not the master. -/
def IsSlave (k : Cpus) (cpu : ℕ) : Prop := cpu ∈ k.syncCpuIdList ∧ cpu ≠ k.masterCpuId

/-- Some CPU has returned. -/
def SomeReturned (k : Cpus) (s : State) : Prop :=
  s.master = .returned ∨ ∃ cpu, IsSlave k cpu ∧ s.slave cpu = .returned

/-- All CPUs have entered. -/
def AllEntered (k : Cpus) (s : State) : Prop :=
  s.master ≠ .outside ∧ ∀ cpu, IsSlave k cpu → s.slave cpu ≠ .outside

/-- All CPUs have returned. -/
def AllReturned (k : Cpus) (s : State) : Prop :=
  s.master = .returned ∧ ∀ cpu, IsSlave k cpu → s.slave cpu = .returned

/-- How far the master is with a slave. -/
inductive Stage where
  /-- Not visited. -/
  | untouched
  /-- The master waits for the slave. -/
  | testing
  /-- The master has seen the slave start. -/
  | retesting
  /-- The slave has confirmed. -/
  | confirmed
  /-- The slave may run. -/
  | started

/-- Stage of a slave. -/
def stage : MasterPhase → ℕ → Stage
  | .outside, _ => .untouched
  | .syncSlaves todo, cpu => if cpu ∈ todo then .untouched else .confirmed
  | .awaitConfirm slaveCpuId todo, cpu =>
    if cpu ∈ todo then .untouched else if cpu = slaveCpuId then .testing else .confirmed
  | .testAgain slaveCpuId todo, cpu =>
    if cpu ∈ todo then .untouched else if cpu = slaveCpuId then .retesting else .confirmed
  | .startSlaves todo, cpu => if cpu ∈ todo then .confirmed else .started
  | .returned, _ => .started

/-- What master and one slave share. -/
structure Link where
  /-- The master's stage. -/
  stage : Stage
  /-- The slave's place. -/
  phase : SlavePhase
  /-- The slave's cell. -/
  cell : U32

/-- The link of a slave. -/
def link (s : State) (cpu : ℕ) : Link := ⟨stage s.master cpu,s.slave cpu,s.cells cpu⟩

/-- What a link can do. -/
inductive Moves : Link → Link → Prop where
  /-- The slave calls. -/
  | enter (st : Stage) (v : U32) : Moves ⟨st,.outside,v⟩ ⟨st,.announce,v⟩
  /-- The slave announces itself. -/
  | announce (st : Stage) (v : U32) : Moves ⟨st,.announce,v⟩ ⟨st,.awaitTest,stateInitDone⟩
  /-- The slave sees the test. -/
  | seeTest (st : Stage) :
    Moves ⟨st,.awaitTest,stateTestInitDone⟩ ⟨st,.confirm,stateTestInitDone⟩
  /-- The slave confirms. -/
  | confirm (st : Stage) (v : U32) : Moves ⟨st,.confirm,v⟩ ⟨st,.awaitRun,stateConfirmInitDone⟩
  /-- The slave sees that it may run. -/
  | seeRun (st : Stage) : Moves ⟨st,.awaitRun,stateRun⟩ ⟨st,.returned,stateRun⟩
  /-- The master tests. -/
  | test (ph : SlavePhase) (v : U32) :
    Moves ⟨.untouched,ph,v⟩ ⟨.testing,ph,stateTestInitDone⟩
  /-- The master sees the slave start. -/
  | seeInit (ph : SlavePhase) :
    Moves ⟨.testing,ph,stateInitDone⟩ ⟨.retesting,ph,stateInitDone⟩
  /-- The master tests again. -/
  | testAgain (ph : SlavePhase) (v : U32) :
    Moves ⟨.retesting,ph,v⟩ ⟨.testing,ph,stateTestInitDone⟩
  /-- The master sees the confirmation. -/
  | seeConfirm (ph : SlavePhase) :
    Moves ⟨.testing,ph,stateConfirmInitDone⟩ ⟨.confirmed,ph,stateConfirmInitDone⟩
  /-- The master starts the slave. -/
  | start (ph : SlavePhase) (v : U32) : Moves ⟨.confirmed,ph,v⟩ ⟨.started,ph,stateRun⟩

/-- The values a cell can hold, given where master and slave are. Before the
slave has announced itself and the master has tested it the cell holds
anything. -/
def LinkOk : Link → Prop
  | ⟨.untouched,.outside,_⟩ => True
  | ⟨.untouched,.announce,_⟩ => True
  | ⟨.untouched,.awaitTest,v⟩ => v = stateInitDone
  | ⟨.testing,.outside,v⟩ => v = stateTestInitDone
  | ⟨.testing,.announce,v⟩ => v = stateTestInitDone
  | ⟨.testing,.awaitTest,v⟩ => v = stateInitDone ∨ v = stateTestInitDone
  | ⟨.testing,.confirm,v⟩ => v = stateTestInitDone
  | ⟨.testing,.awaitRun,v⟩ => v = stateConfirmInitDone
  | ⟨.retesting,.awaitTest,v⟩ => v = stateInitDone
  | ⟨.confirmed,.awaitRun,v⟩ => v = stateConfirmInitDone
  | ⟨.started,.awaitRun,v⟩ => v = stateRun
  | ⟨.started,.returned,_⟩ => True
  | _ => False

/-- Moves a link has still to make, counted from above. -/
def rank : Link → ℕ
  | ⟨.untouched,.outside,_⟩ => 10
  | ⟨.untouched,.announce,_⟩ => 9
  | ⟨.untouched,_,_⟩ => 8
  | ⟨.testing,.outside,_⟩ => 9
  | ⟨.testing,.announce,_⟩ => 8
  | ⟨.testing,.awaitTest,v⟩ => if v = stateInitDone then 7 else 5
  | ⟨.testing,.confirm,_⟩ => 4
  | ⟨.testing,_,_⟩ => 3
  | ⟨.retesting,_,_⟩ => 6
  | ⟨.confirmed,_,_⟩ => 2
  | ⟨.started,.awaitRun,_⟩ => 1
  | ⟨.started,_,_⟩ => 0

section Links

variable {a b : Link}

@[simp] theorem stateTestInitDone_ne_initDone : stateTestInitDone ≠ stateInitDone := by decide

@[simp] theorem stateConfirmInitDone_ne_initDone : stateConfirmInitDone ≠ stateInitDone := by
  decide

@[simp] theorem stateConfirmInitDone_ne_testInitDone :
    stateConfirmInitDone ≠ stateTestInitDone := by decide

@[simp] theorem stateRun_ne_confirmInitDone : stateRun ≠ stateConfirmInitDone := by decide

/-- Moves keep links well formed. -/
theorem Moves.ok (h : Moves a b) (ha : LinkOk a) : LinkOk b := by
  cases h with
  | enter st v => cases st <;> simp_all [LinkOk]
  | announce st v => cases st <;> simp_all [LinkOk]
  | seeTest st => cases st <;> simp_all [LinkOk]
  | confirm st v => cases st <;> simp_all [LinkOk]
  | seeRun st => cases st <;> simp_all [LinkOk]
  | test ph v => cases ph <;> simp_all [LinkOk]
  | seeInit ph => cases ph <;> simp_all [LinkOk,stateConfirmInitDone_ne_initDone.symm,
      stateTestInitDone_ne_initDone.symm]
  | testAgain ph v => cases ph <;> simp_all [LinkOk]
  | seeConfirm ph => cases ph <;> simp_all [LinkOk]
  | start ph v => cases ph <;> simp_all [LinkOk]

/-- Moves lead forward. -/
theorem Moves.rank_lt (h : Moves a b) (ha : LinkOk a) : rank b < rank a := by
  cases h with
  | enter st v => cases st <;> simp_all [LinkOk,rank]
  | announce st v => cases st <;> simp_all [LinkOk,rank]
  | seeTest st => cases st <;> simp_all [LinkOk,rank]
  | confirm st v => cases st <;> simp_all [LinkOk,rank]
  | seeRun st => cases st <;> simp_all [LinkOk,rank]
  | test ph v => cases ph <;> simp_all [LinkOk,rank]
  | seeInit ph => cases ph <;> simp_all [LinkOk,rank,stateConfirmInitDone_ne_initDone.symm,
      stateTestInitDone_ne_initDone.symm]
  | testAgain ph v => cases ph <;> simp_all [LinkOk,rank]
  | seeConfirm ph => cases ph <;> simp_all [LinkOk,rank]
  | start ph v => cases ph <;> simp_all [LinkOk,rank]

/-- A link that moves or rests stays well formed. -/
theorem reflGen_ok (h : Relation.ReflGen Moves a b) (ha : LinkOk a) : LinkOk b := by
  cases h with
  | refl => exact ha
  | single h => exact h.ok ha

/-- A link that moves or rests does not go back. -/
theorem reflGen_rank_le (h : Relation.ReflGen Moves a b) (ha : LinkOk a) : rank b ≤ rank a := by
  cases h with
  | refl => exact le_rfl
  | single h => exact (h.rank_lt ha).le

/-- Once a link may run, its slave has entered. -/
theorem LinkOk.entered (ha : LinkOk a) (h : a.stage = .confirmed ∨ a.stage = .started) :
    a.phase ≠ .outside := by
  obtain ⟨st,ph,v⟩ := a
  cases st <;> cases ph <;> simp_all [LinkOk]

/-- A slave returns only when it may run. -/
theorem LinkOk.started_of_returned (ha : LinkOk a) (h : a.phase = .returned) :
    a.stage = .started := by
  obtain ⟨st,ph,v⟩ := a
  cases st <;> cases ph <;> simp_all [LinkOk]

/-- The slave's next step is no vain read. -/
def SlaveReady : Link → Prop
  | ⟨_,.awaitTest,v⟩ => v = stateTestInitDone
  | ⟨_,.awaitRun,v⟩ => v = stateRun
  | ⟨_,.returned,_⟩ => False
  | _ => True

/-- While the master waits, the slave can go on or the master's read is not
in vain. -/
theorem LinkOk.ready_of_testing (ha : LinkOk a) (h : a.stage = .testing) :
    SlaveReady a ∨ a.cell = stateInitDone ∨ a.cell = stateConfirmInitDone := by
  obtain ⟨st,ph,v⟩ := a
  cases st <;> cases ph <;> simp_all [LinkOk,SlaveReady]
  exact ha.elim (fun h => Or.inr (Or.inl h)) Or.inl

/-- A slave that may run can go on until it has returned. -/
theorem LinkOk.ready_of_started (ha : LinkOk a) (h : a.stage = .started)
    (hret : a.phase ≠ .returned) : SlaveReady a := by
  obtain ⟨st,ph,v⟩ := a
  cases st <;> cases ph <;> simp_all [LinkOk,SlaveReady]

end Links

/-- The lists of the master's loops are ends of the CPU list. -/
def MasterOk (k : Cpus) : MasterPhase → Prop
  | .outside => True
  | .syncSlaves todo => todo <:+ k.syncCpuIdList
  | .awaitConfirm cpu todo => cpu :: todo <:+ k.syncCpuIdList ∧ cpu ≠ k.masterCpuId
  | .testAgain cpu todo => cpu :: todo <:+ k.syncCpuIdList ∧ cpu ≠ k.masterCpuId
  | .startSlaves todo => todo <:+ k.syncCpuIdList
  | .returned => True

/-- Invariant of the barrier. -/
structure Inv (k : Cpus) (s : State) : Prop where
  /-- The master's lists. -/
  master : MasterOk k s.master
  /-- The slaves' links. -/
  links : ∀ cpu, IsSlave k cpu → LinkOk (link s cpu)

/-- Steps the master has still to make besides its moves on links. -/
def masterRank (k : Cpus) : MasterPhase → ℕ
  | .outside => 2 * k.syncCpuIdList.length + 4
  | .syncSlaves todo => k.syncCpuIdList.length + todo.length + 3
  | .awaitConfirm _ todo => k.syncCpuIdList.length + todo.length + 3
  | .testAgain _ todo => k.syncCpuIdList.length + todo.length + 3
  | .startSlaves todo => todo.length + 1
  | .returned => 0

section Steps

variable {k : Cpus} {s : State} {cpu other : ℕ} {todo : List ℕ} {v : U32}

theorem setCpuSyncState_self (h : cpu < maxCpus) (cells : ℕ → U32) :
    setCpuSyncState cells cpu v cpu = v := by
  unfold setCpuSyncState
  rw [if_pos h,update_self]

theorem setCpuSyncState_other (h : other ≠ cpu) (cells : ℕ → U32) :
    setCpuSyncState cells cpu v other = cells other := by
  unfold setCpuSyncState
  split
  · exact update_of_ne h ..
  · rfl

theorem getCpuSyncState_eq (h : cpu < maxCpus) (cells : ℕ → U32) :
    getCpuSyncState cells cpu = cells cpu := if_pos h

/-- The slave whose turn it was in a loop has its turn no more. -/
theorem suffix_turn (h : cpu :: todo <:+ k.syncCpuIdList) :
    cpu ∉ todo ∧ cpu < maxCpus ∧ todo <:+ k.syncCpuIdList := by
  refine ⟨?_,k.lt_max cpu (h.subset List.mem_cons_self),(List.suffix_cons cpu todo).trans h⟩
  exact (List.nodup_cons.mp (k.nodup.sublist h.sublist)).1

/-- Only the master goes on, by itself. -/
structure GoesOn (k : Cpus) (s s' : State) : Prop where
  /-- The master has less to do. -/
  master : masterRank k s'.master < masterRank k s.master
  /-- The links rest. -/
  links : ∀ other, IsSlave k other → link s' other = link s other

/-- One link moves. -/
structure LinkMoves (k : Cpus) (s s' : State) (cpu : ℕ) : Prop where
  /-- The link is that of a slave. -/
  slave : IsSlave k cpu
  /-- The master has no more to do. -/
  master : masterRank k s'.master ≤ masterRank k s.master
  /-- The link moves. -/
  moves : Moves (link s cpu) (link s' cpu)
  /-- The other links rest. -/
  others : ∀ other, IsSlave k other → other ≠ cpu → link s' other = link s other

/-- A slave goes on after a read. -/
theorem linkMoves_slave (h : IsSlave k cpu) {ph : SlavePhase}
    (hmoves : Moves (link s cpu) ⟨stage s.master cpu,ph,s.cells cpu⟩) :
    LinkMoves k s { s with slave := update s.slave cpu ph } cpu := by
  refine ⟨h,le_rfl,?_,fun other _ hne => ?_⟩
  · simpa [link] using hmoves
  · simp [link,hne]

/-- A slave writes its cell. -/
theorem linkMoves_slaveWrite (h : IsSlave k cpu) {ph : SlavePhase}
    (hmoves : Moves (link s cpu) ⟨stage s.master cpu,ph,v⟩) :
    LinkMoves k s
      { s with cells := setCpuSyncState s.cells cpu v, slave := update s.slave cpu ph } cpu := by
  refine ⟨h,le_rfl,?_,fun other _ hne => ?_⟩
  · simpa [link,setCpuSyncState_self (k.lt_max cpu h.1)] using hmoves
  · simp [link,hne,setCpuSyncState_other hne]

/-- The master goes on after a read of a slave's cell. -/
theorem linkMoves_master (h : IsSlave k cpu) {m : MasterPhase}
    (hrank : masterRank k m ≤ masterRank k s.master)
    (hmoves : Moves (link s cpu) ⟨stage m cpu,s.slave cpu,s.cells cpu⟩)
    (hothers : ∀ other, other ≠ cpu → stage m other = stage s.master other) :
    LinkMoves k s { s with master := m } cpu := by
  refine ⟨h,hrank,hmoves,fun other _ hne => ?_⟩
  simp [link,hothers other hne]

/-- The master writes a slave's cell. -/
theorem linkMoves_masterWrite (h : IsSlave k cpu) {m : MasterPhase}
    (hrank : masterRank k m ≤ masterRank k s.master)
    (hmoves : Moves (link s cpu) ⟨stage m cpu,s.slave cpu,v⟩)
    (hothers : ∀ other, other ≠ cpu → stage m other = stage s.master other) :
    LinkMoves k s { s with cells := setCpuSyncState s.cells cpu v, master := m } cpu := by
  refine ⟨h,hrank,?_,fun other _ hne => ?_⟩
  · simpa [link,setCpuSyncState_self (k.lt_max cpu h.1)] using hmoves
  · simp [link,hothers other hne,setCpuSyncState_other hne]

/-- The master goes on without a look at a cell. -/
theorem goesOn_master {m : MasterPhase} (hrank : masterRank k m < masterRank k s.master)
    (hlinks : ∀ other, IsSlave k other → stage m other = stage s.master other) :
    GoesOn k s { s with master := m } := by
  refine ⟨hrank,fun other hother => ?_⟩
  simp [link,hlinks other hother]

/-- A slave waits or moves its link. -/
theorem slaveStep_cases (h : IsSlave k cpu) :
    slaveStep s cpu = s ∨ (slaveStep s cpu).master = s.master ∧
      LinkMoves k s (slaveStep s cpu) cpu := by
  have hself : link s cpu = ⟨stage s.master cpu,s.slave cpu,s.cells cpu⟩ := rfl
  unfold slaveStep
  rw [getCpuSyncState_eq (k.lt_max cpu h.1)]
  split
  · next hph =>
    rw [hph] at hself
    exact Or.inr ⟨rfl,linkMoves_slave h (hself ▸ Moves.enter _ _)⟩
  · next hph =>
    rw [hph] at hself
    exact Or.inr ⟨rfl,linkMoves_slaveWrite h (hself ▸ Moves.announce _ _)⟩
  · next hph =>
    split
    · exact Or.inl rfl
    · next hcell =>
      rw [not_not] at hcell
      refine Or.inr ⟨rfl,linkMoves_slave h ?_⟩
      rw [hself,hph,hcell]
      exact Moves.seeTest _
  · next hph =>
    rw [hph] at hself
    exact Or.inr ⟨rfl,linkMoves_slaveWrite h (hself ▸ Moves.confirm _ _)⟩
  · next hph =>
    split
    · exact Or.inl rfl
    · next hcell =>
      rw [not_not] at hcell
      refine Or.inr ⟨rfl,linkMoves_slave h ?_⟩
      rw [hself,hph,hcell]
      exact Moves.seeRun _
  · exact Or.inl rfl

/-- A slave is not the CPU that the loops skip. -/
theorem IsSlave.ne_of_skipped (h : IsSlave k other) (hcpu : ¬ cpu ≠ k.masterCpuId) :
    other ≠ cpu := by
  rw [not_not] at hcpu
  rw [hcpu]
  exact h.2

/-- The first loop visits a slave, or skips the master itself. -/
theorem syncSlaves_cases (h : MasterOk k s.master) (hm : s.master = .syncSlaves (cpu :: todo)) :
    MasterOk k (masterStep k s).master ∧
    (GoesOn k s (masterStep k s) ∨ LinkMoves k s (masterStep k s) cpu) := by
  rw [hm] at h
  obtain ⟨hnot,-,hsuffix⟩ := suffix_turn h
  unfold masterStep
  simp only [hm]
  by_cases hcpu : cpu ≠ k.masterCpuId
  · rw [if_pos hcpu]
    refine ⟨⟨h,hcpu⟩,Or.inr (linkMoves_masterWrite ⟨h.subset List.mem_cons_self,hcpu⟩ ?_ ?_ ?_)⟩
    · simp [hm,masterRank]
    · simpa [link,hm,stage,hnot] using Moves.test _ _
    · intro other hne
      simp [hm,stage,hne]
  · rw [if_neg hcpu]
    refine ⟨hsuffix,Or.inl (goesOn_master ?_ fun other hother => ?_)⟩
    · simp [hm,masterRank]
    · simp [hm,stage,hother.ne_of_skipped hcpu]

/-- The second loop starts a slave, or skips the master itself. -/
theorem startSlaves_cases (h : MasterOk k s.master) (hm : s.master = .startSlaves (cpu :: todo)) :
    MasterOk k (masterStep k s).master ∧
    (GoesOn k s (masterStep k s) ∨ LinkMoves k s (masterStep k s) cpu) := by
  rw [hm] at h
  obtain ⟨hnot,-,hsuffix⟩ := suffix_turn h
  unfold masterStep
  simp only [hm]
  by_cases hcpu : cpu ≠ k.masterCpuId
  · rw [if_pos hcpu]
    refine ⟨hsuffix,Or.inr (linkMoves_masterWrite ⟨h.subset List.mem_cons_self,hcpu⟩ ?_ ?_ ?_)⟩
    · simp [hm,masterRank]
    · simpa [link,hm,stage,hnot] using Moves.start _ _
    · intro other hne
      simp [hm,stage,hne]
  · rw [if_neg hcpu]
    refine ⟨hsuffix,Or.inl (goesOn_master ?_ fun other hother => ?_)⟩
    · simp [hm,masterRank]
    · simp [hm,stage,hother.ne_of_skipped hcpu]

/-- While the master waits for a slave it reads in vain or moves the slave's
link. -/
theorem awaitConfirm_cases (h : MasterOk k s.master) (hm : s.master = .awaitConfirm cpu todo) :
    MasterOk k (masterStep k s).master ∧
    (masterStep k s = s ∨ LinkMoves k s (masterStep k s) cpu) := by
  have hok := h
  rw [hm] at hok
  obtain ⟨hnot,hlt,hsuffix⟩ := suffix_turn hok.1
  have hslave : IsSlave k cpu := ⟨hok.1.subset List.mem_cons_self,hok.2⟩
  unfold masterStep
  simp only [hm,getCpuSyncState_eq hlt]
  by_cases hinit : s.cells cpu = stateInitDone
  · rw [if_pos hinit]
    refine ⟨hok,Or.inr (linkMoves_master hslave ?_ ?_ ?_)⟩
    · simp [hm,masterRank]
    · simpa [link,hm,stage,hnot,hinit] using Moves.seeInit _
    · intro other hne
      simp [hm,stage,hne]
  rw [if_neg hinit]
  by_cases hconfirm : s.cells cpu ≠ stateConfirmInitDone
  · rw [if_pos hconfirm]
    exact ⟨h,Or.inl rfl⟩
  · rw [if_neg hconfirm]
    rw [not_not] at hconfirm
    refine ⟨hsuffix,Or.inr (linkMoves_master hslave ?_ ?_ ?_)⟩
    · simp [hm,masterRank]
    · simpa [link,hm,stage,hnot,hconfirm] using Moves.seeConfirm _
    · intro other hne
      simp [hm,stage,hne]

/-- The master answers a slave that has just started. -/
theorem testAgain_moves (h : MasterOk k s.master) (hm : s.master = .testAgain cpu todo) :
    MasterOk k (masterStep k s).master ∧ LinkMoves k s (masterStep k s) cpu := by
  rw [hm] at h
  obtain ⟨hnot,-,-⟩ := suffix_turn h.1
  unfold masterStep
  simp only [hm]
  refine ⟨h,linkMoves_masterWrite ⟨h.1.subset List.mem_cons_self,h.2⟩ ?_ ?_ ?_⟩
  · simp [hm,masterRank]
  · simpa [link,hm,stage,hnot] using Moves.testAgain _ _
  · intro other hne
    simp [hm,stage,hne]

/-- The master waits, goes on by itself or moves the link of the slave whose
turn it is. -/
theorem masterStep_cases (h : MasterOk k s.master) :
    MasterOk k (masterStep k s).master ∧
    (masterStep k s = s ∨ GoesOn k s (masterStep k s) ∨
      ∃ cpu, LinkMoves k s (masterStep k s) cpu) := by
  rcases hm : s.master with _ | (_ | ⟨cpu,todo⟩) | ⟨cpu,todo⟩ | ⟨cpu,todo⟩ | (_ | ⟨cpu,todo⟩) | _
  · unfold masterStep
    simp only [hm]
    refine ⟨List.suffix_rfl,Or.inr (Or.inl (goesOn_master ?_ fun other hother => ?_))⟩
    · simp only [hm,masterRank]
      omega
    · simp [hm,stage,hother.1]
  · unfold masterStep
    simp only [hm]
    refine ⟨List.suffix_rfl,Or.inr (Or.inl (goesOn_master ?_ fun other hother => ?_))⟩
    · simp [hm,masterRank]
    · simp [hm,stage,hother.1]
  · obtain ⟨hok,hcases⟩ := syncSlaves_cases h hm
    exact ⟨hok,Or.inr (hcases.imp_right fun hmoves => ⟨cpu,hmoves⟩)⟩
  · obtain ⟨hok,hcases⟩ := awaitConfirm_cases h hm
    exact ⟨hok,hcases.imp_right fun hmoves => Or.inr ⟨cpu,hmoves⟩⟩
  · obtain ⟨hok,hmoves⟩ := testAgain_moves h hm
    exact ⟨hok,Or.inr (Or.inr ⟨cpu,hmoves⟩)⟩
  · unfold masterStep
    simp only [hm]
    refine ⟨trivial,Or.inr (Or.inl (goesOn_master ?_ fun other hother => ?_))⟩
    · simp [hm,masterRank]
    · simp [hm,stage]
  · obtain ⟨hok,hcases⟩ := startSlaves_cases h hm
    exact ⟨hok,Or.inr (hcases.imp_right fun hmoves => ⟨cpu,hmoves⟩)⟩
  · unfold masterStep
    simp only [hm]
    exact ⟨trivial,Or.inl trivial⟩

/-- Of all CPUs at most one goes on or moves its link. -/
theorem step_cases (h : MasterOk k s.master) (cpu : ℕ) :
    MasterOk k (step k s cpu).master ∧
    (step k s cpu = s ∨ GoesOn k s (step k s cpu) ∨ ∃ c, LinkMoves k s (step k s cpu) c) := by
  unfold step
  split
  · exact masterStep_cases h
  · next hcpu =>
    split
    · next hlisted =>
      rcases slaveStep_cases ⟨hlisted,hcpu⟩ with heq | ⟨hmaster,hmoves⟩
      · rw [heq]
        exact ⟨h,Or.inl rfl⟩
      · rw [hmaster]
        exact ⟨h,Or.inr (Or.inr ⟨cpu,hmoves⟩)⟩
    · exact ⟨h,Or.inl rfl⟩

/-- A link moves or rests in a step. -/
theorem link_step (h : MasterOk k s.master) (cpu : ℕ) (hother : IsSlave k other) :
    Relation.ReflGen Moves (link s other) (link (step k s cpu) other) := by
  obtain ⟨-,heq | hgoes | ⟨c,hmoves⟩⟩ := step_cases h cpu
  · rw [heq]
  · rw [hgoes.links other hother]
  · by_cases hne : other = c
    · rw [hne]
      exact Relation.ReflGen.single hmoves.moves
    · rw [hmoves.others other hother hne]

theorem inv_start (cells : ℕ → U32) : Inv k (start cells) := ⟨trivial,fun _ _ => trivial⟩

/-- Every step keeps the invariant. -/
theorem Inv.step (h : Inv k s) (cpu : ℕ) : Inv k (step k s cpu) :=
  ⟨(step_cases h.master cpu).1,fun other hother =>
    reflGen_ok (link_step h.master cpu hother) (h.links other hother)⟩

/-- When the master lets one slave run, all slaves have confirmed. -/
theorem stage_started {m : MasterPhase} (h : stage m cpu = .started) (other : ℕ) :
    m ≠ .outside ∧ (stage m other = .confirmed ∨ stage m other = .started) := by
  cases m with
  | outside => cases h
  | syncSlaves todo =>
    simp only [stage] at h
    split at h <;> cases h
  | awaitConfirm slaveCpuId todo =>
    simp only [stage] at h
    split at h
    · cases h
    · split at h <;> cases h
  | testAgain slaveCpuId todo =>
    simp only [stage] at h
    split at h
    · cases h
    · split at h <;> cases h
  | startSlaves todo =>
    refine ⟨MasterPhase.noConfusion,?_⟩
    simp only [stage]
    split
    · exact Or.inl rfl
    · exact Or.inr rfl
  | returned => exact ⟨MasterPhase.noConfusion,Or.inr rfl⟩

/-- No CPU returns before all have entered. -/
theorem Inv.allEntered (h : Inv k s) (hret : SomeReturned k s) : AllEntered k s := by
  obtain ⟨cpu,hstarted⟩ : ∃ cpu, stage s.master cpu = .started := by
    rcases hret with hmaster | ⟨cpu,hslave,hphase⟩
    · refine ⟨0,?_⟩
      rw [hmaster]
      rfl
    · exact ⟨cpu,(h.links cpu hslave).started_of_returned hphase⟩
  refine ⟨(stage_started hstarted 0).1,fun other hother => ?_⟩
  exact (h.links other hother).entered (stage_started hstarted other).2

/-- What is still to be done. -/
def totalRank (k : Cpus) (s : State) : ℕ :=
  masterRank k s.master +
    ((k.syncCpuIdList.filter fun cpu => cpu ≠ k.masterCpuId).map fun cpu => rank (link s cpu)).sum

/-- A step that changes anything brings the CPUs nearer to their return. -/
theorem Inv.lower (h : Inv k s) (cpu : ℕ) :
    LogCpuSync.step k s cpu = s ∨ totalRank k (LogCpuSync.step k s cpu) < totalRank k s := by
  have hle : ∀ c ∈ k.syncCpuIdList.filter fun cpu => cpu ≠ k.masterCpuId,
      rank (link (LogCpuSync.step k s cpu) c) ≤ rank (link s c) := by
    intro c hc
    have hslave : IsSlave k c := by simpa [IsSlave] using List.mem_filter.mp hc
    exact reflGen_rank_le (link_step h.master cpu hslave) (h.links c hslave)
  have hsum := List.sum_le_sum hle
  obtain ⟨-,heq | hgoes | ⟨c,hmoves⟩⟩ := step_cases h.master cpu
  · exact Or.inl heq
  · right
    have hmaster := hgoes.master
    unfold totalRank
    omega
  · right
    have hmem : c ∈ k.syncCpuIdList.filter fun cpu => cpu ≠ k.masterCpuId := by
      simpa [IsSlave] using hmoves.slave
    have hlt := List.sum_lt_sum _ _ hle
      ⟨c,hmem,hmoves.moves.rank_lt (h.links c hmoves.slave)⟩
    have hmaster := hmoves.master
    unfold totalRank
    omega

theorem step_of_slave (h : IsSlave k cpu) : step k s cpu = slaveStep s cpu := by
  unfold step
  rw [if_neg h.2,if_pos h.1]

theorem step_of_master : step k s k.masterCpuId = masterStep k s := if_pos rfl

/-- A slave that is ready goes on. -/
theorem step_ne_of_ready (h : IsSlave k cpu) (hready : SlaveReady (link s cpu)) :
    step k s cpu ≠ s := by
  have hlt : cpu < maxCpus := k.lt_max cpu h.1
  rw [step_of_slave h]
  intro heq
  have hphase : (slaveStep s cpu).slave cpu = s.slave cpu := by rw [heq]
  unfold link at hready
  unfold slaveStep at hphase
  cases hph : s.slave cpu <;>
    simp_all [SlaveReady,getCpuSyncState_eq hlt]

/-- The master goes on unless it waits or has returned. -/
theorem masterStep_ne (hret : s.master ≠ .returned)
    (hcell : ∀ cpu todo, s.master = .awaitConfirm cpu todo →
      getCpuSyncState s.cells cpu = stateInitDone ∨
      getCpuSyncState s.cells cpu = stateConfirmInitDone) :
    masterStep k s ≠ s := by
  intro heq
  have hphase : (masterStep k s).master = s.master := by rw [heq]
  clear heq
  obtain ⟨cells,master,slave⟩ := s
  rcases master with _ | (_ | ⟨cpu,todo⟩) | ⟨cpu,todo⟩ | ⟨cpu,todo⟩ | (_ | ⟨cpu,todo⟩) | _
  · simp [masterStep] at hphase
  · simp [masterStep] at hphase
  · simp only [masterStep] at hphase
    split at hphase <;> simp at hphase
  · rcases hcell cpu todo rfl with hinit | hconfirm
    · simp [masterStep,hinit] at hphase
    · simp [masterStep,hconfirm] at hphase
  · simp [masterStep] at hphase
  · simp [masterStep] at hphase
  · simp only [masterStep] at hphase
    split at hphase <;> simp at hphase
  · exact hret rfl

/-- Some CPU can go on until all have returned. -/
theorem Inv.exists_step (h : Inv k s) (hret : ¬ AllReturned k s) :
    ∃ cpu, LogCpuSync.step k s cpu ≠ s := by
  by_cases hmaster : s.master = .returned
  · -- some slave has not seen yet that it may run
    obtain ⟨cpu,hslave,hphase⟩ : ∃ cpu, IsSlave k cpu ∧ s.slave cpu ≠ .returned := by
      by_contra hall
      exact hret ⟨hmaster,fun cpu hslave => by_contra fun hphase => hall ⟨cpu,hslave,hphase⟩⟩
    have hstarted : (link s cpu).stage = .started := by
      unfold link
      rw [hmaster]
      rfl
    exact ⟨cpu,step_ne_of_ready hslave ((h.links cpu hslave).ready_of_started hstarted hphase)⟩
  by_cases hwait : ∃ cpu todo, s.master = .awaitConfirm cpu todo
  · obtain ⟨cpu,todo,hwait⟩ := hwait
    have hok := h.master
    rw [hwait] at hok
    obtain ⟨hnot,hlt,-⟩ := suffix_turn hok.1
    have hslave : IsSlave k cpu := ⟨hok.1.subset List.mem_cons_self,hok.2⟩
    have htesting : (link s cpu).stage = .testing := by simp [link,hwait,stage,hnot]
    rcases (h.links cpu hslave).ready_of_testing htesting with hready | hcell
    · exact ⟨cpu,step_ne_of_ready hslave hready⟩
    · refine ⟨k.masterCpuId,?_⟩
      rw [step_of_master]
      refine masterStep_ne hmaster fun c todo' hc => ?_
      obtain ⟨rfl,-⟩ := MasterPhase.awaitConfirm.inj (hwait.symm.trans hc)
      rw [getCpuSyncState_eq hlt]
      exact hcell
  · refine ⟨k.masterCpuId,?_⟩
    rw [step_of_master]
    exact masterStep_ne hmaster fun cpu todo hc => absurd ⟨cpu,todo,hc⟩ hwait

end Steps

/-- In every run no CPU has returned before all have entered, and from
everywhere all have entered there is a continuation in which all return. -/
theorem barrier (k : Cpus) (cells : ℕ → U32) (cpus : List ℕ) :
    let s := run (step k) (start cells) cpus
    (SomeReturned k s → AllEntered k s) ∧
      (AllEntered k s → ∃ more, AllReturned k (run (step k) s more)) := by
  have hinv : Inv k (run (step k) (start cells) cpus) :=
    run_invariant (fun s cpu h => h.step cpu) (inv_start cells) cpus
  refine ⟨hinv.allEntered,fun _ => ?_⟩
  apply exists_run_of_measure (totalRank k) (I := Inv k) (fun s cpu h => h.step cpu) ?_ hinv
  intro s h hret
  obtain ⟨cpu,hne⟩ := h.exists_step hret
  exact ⟨cpu,(h.lower cpu).resolve_left hne⟩

end EthernetFirmware.LogCpuSync
