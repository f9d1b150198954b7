import EthernetFirmware.RemoteConfig
import EthernetFirmware.SlotTables
import EthernetFirmware.GuardedRuns

/-!
# Task pool of the Jacinto abstraction

A create picks a free entry under the mutex, stores the function in it and
creates a kernel task that calls the function through the entry; only the
handle that is published afterwards marks the entry as taken. The steps of
any number of creates, of the tasks' starts and of the deletes interleave.
The mutex is valid, and a create that finds no entry stops in its check.
-/

namespace EthernetFirmware.JacintoTaskPool

open Function GuardedRuns SlotTables

/-- `ETHFW_OSAL_FREERTOS_MAX_TASK`. -/
def maxTask : ℕ := 15

/-- `EthFwOsal_TaskObj`. -/
structure TaskObj (F H : Type*) where
  /-- `handle`. -/
  handle : Option H
  /-- `func`. -/
  func : Option F

/-- Where a caller is in `EthFwOsal_createTask`. -/
inductive Creator (n : ℕ) (F A : Type*) where
  /-- In no call. -/
  | idle
  /-- An entry is picked. -/
  | searched (taskObj : Fin n) (func : F) (arg0 : A)
  /-- The function is stored. -/
  | stored (taskObj : Fin n) (func : F) (arg0 : A)
  /-- Stopped in the check for an entry. -/
  | asserted

/-- A kernel task. -/
structure Task (n : ℕ) (F A : Type*) where
  /-- First argument of `EthFwOsal_tempTask`. -/
  a0 : Fin n
  /-- Second argument of `EthFwOsal_tempTask`. -/
  a1 : A
  /-- Function its creator passed. -/
  func : F
  /-- Argument its creator passed. -/
  arg0 : A
  /-- What it has called, with the argument. -/
  ran : Option (Option F × A)
  /-- A delete has cleared the pool. -/
  cleared : Bool

/-- Pool, callers and kernel tasks. -/
structure State (n : ℕ) (F A H : Type*) where
  /-- `gEthFwOsalTaskPfreertosPool`. -/
  pool : Fin n → TaskObj F H
  /-- Callers of `EthFwOsal_createTask`. -/
  creator : ℕ → Creator n F A
  /-- Tasks that exist in the kernel. -/
  tasks : H → Option (Task n F A)

/-- Steps of creates, tasks and deletes. -/
inductive Event (F A H : Type*) where
  /-- A caller searches the pool under the mutex. -/
  | search (caller : ℕ) (func : F) (arg0 : A)
  /-- A caller stores the function. -/
  | storeFunc (caller : ℕ)
  /-- `TaskP_create` with its result, and the store of the handle. -/
  | create (caller : ℕ) (result : Option H)
  /-- A task starts. -/
  | start (handle : H)
  /-- A delete clears the pool under the mutex. -/
  | clear (handle : H)
  /-- `TaskP_delete`. -/
  | delete (handle : H)

variable {n : ℕ} {F A H : Type*}

/-- `EthFwOsal_init`. -/
def init (n : ℕ) (F A H : Type*) : State n F A H :=
  ⟨fun _ => ⟨none,none⟩,fun _ => .idle,fun _ => none⟩

/-- Search for an entry without a handle. -/
def findFree (pool : Fin n → TaskObj F H) : Option (Fin n) :=
  firstSlot (fun taskObj => taskObj.handle.isNone) pool

/-- The call made by `EthFwOsal_tempTask`. -/
def tempTask (pool : Fin n → TaskObj F H) (a0 : Fin n) (a1 : A) : Option F × A :=
  ((pool a0).func,a1)

/-- The loop of `EthFwOsal_deleteTask`. -/
def clearEntry [DecidableEq H] (pool : Fin n → TaskObj F H) (handle : H) :
    Fin n → TaskObj F H :=
  match firstSlot (fun taskObj => decide (taskObj.handle = some handle)) pool with
  | some i => update pool i ⟨none,none⟩
  | none => pool

/-- State after a step. A caller makes one call at a time, a task starts
once, and a delete is called with the handle of a task that no delete has
been called for. -/
def step [DecidableEq H] (s : State n F A H) : Event F A H → State n F A H
  | .search c func arg0 =>
    match s.creator c with
    | .idle =>
      match findFree s.pool with
      | some i => { s with creator := update s.creator c (.searched i func arg0) }
      | none => { s with creator := update s.creator c .asserted }
    | _ => s
  | .storeFunc c =>
    match s.creator c with
    | .searched i func arg0 =>
      { s with
        pool := update s.pool i { s.pool i with func := some func }
        creator := update s.creator c (.stored i func arg0) }
    | _ => s
  | .create c result =>
    match s.creator c with
    | .stored i func arg0 =>
      { pool := update s.pool i { s.pool i with handle := result }
        creator := update s.creator c .idle
        tasks :=
          match result with
          | some h => update s.tasks h (some ⟨i,arg0,func,arg0,none,false⟩)
          | none => s.tasks }
    | _ => s
  | .start h =>
    match s.tasks h with
    | some t =>
      if t.ran.isNone then
        { s with
          tasks := update s.tasks h (some { t with ran := some (tempTask s.pool t.a0 t.a1) }) }
      else s
    | none => s
  | .clear h =>
    match s.tasks h with
    | some t =>
      if t.cleared then s
      else
        { s with
          pool := clearEntry s.pool h
          tasks := update s.tasks h (some { t with cleared := true }) }
    | none => s
  | .delete h =>
    match s.tasks h with
    | some t => if t.cleared then { s with tasks := update s.tasks h none } else s
    | none => s

/-- Entry of a create in progress. -/
def Creator.entry : Creator n F A → Option (Fin n)
  | .searched i _ _ => some i
  | .stored i _ _ => some i
  | _ => none

/-- A create in progress or a live task. -/
inductive User (H : Type*) where
  | creator (c : ℕ)
  | task (handle : H)

/-- Entry of a user. -/
def Uses (s : State n F A H) : User H → Fin n → Prop
  | .creator c, i => (s.creator c).entry = some i
  | .task h, i => ∃ t, s.tasks h = some t ∧ t.cleared = false ∧ t.a0 = i

/-- No two tasks that are being created or are live use one entry. -/
def Exclusive (s : State n F A H) : Prop := ∀ u u' i, Uses s u i → Uses s u' i → u = u'

/-- A task that has started has called its creator's function with its
creator's argument. -/
def RunsOwn (s : State n F A H) : Prop :=
  ∀ h t r, s.tasks h = some t → t.ran = some r → r = (some t.func,t.arg0)

/-- What is promised of every state. -/
def PoolOk (s : State n F A H) : Prop := Exclusive s ∧ RunsOwn s

/-- A delete frees the task's own entry and no other. -/
def DeleteOk [DecidableEq H] (s : State n F A H) : Event F A H → Prop
  | .clear h => ∀ t, s.tasks h = some t → t.cleared = false →
    (step s (.clear h)).pool = update s.pool t.a0 ⟨none,none⟩
  | _ => True

/-- The kernel gives a new task no handle of a task that exists. -/
def Allowed (s : State n F A H) : Event F A H → Prop
  | .create _ (some h) => s.tasks h = none
  | _ => True

/-- The condition on the steps: a search picks no entry that a create in
progress has picked, and a task that starts has not been cleared from the
pool, or its entry holds its function again. -/
def Regular (s : State n F A H) : Event F A H → Prop
  | .search c _ _ => s.creator c = .idle → ∀ i, findFree s.pool = some i →
    ∀ c', (s.creator c').entry ≠ some i
  | .start h => ∀ t, s.tasks h = some t → t.ran = none →
    t.cleared = false ∨ (s.pool t.a0).func = some t.func
  | _ => True

/-- Creates in progress have entries of their own without a handle; live
tasks have entries of their own with their handle and function. -/
structure Inv (s : State n F A H) : Prop where
  /-- Creates in progress. -/
  creators : ∀ c c' i, (s.creator c).entry = some i → (s.creator c').entry = some i → c = c'
  /-- Entries of creates have no handle yet. -/
  free : ∀ c i, (s.creator c).entry = some i → (s.pool i).handle = none
  /-- A function that is stored stays. -/
  stored : ∀ c i func arg0, s.creator c = .stored i func arg0 → (s.pool i).func = some func
  /-- Live tasks. -/
  live : ∀ h t, s.tasks h = some t → t.cleared = false → s.pool t.a0 = ⟨some h,some t.func⟩
  /-- A handle in the pool is that of a live task. -/
  owned : ∀ i h, (s.pool i).handle = some h →
    ∃ t, s.tasks h = some t ∧ t.cleared = false ∧ t.a0 = i
  /-- Arguments. -/
  args : ∀ h t, s.tasks h = some t → t.a1 = t.arg0
  /-- Calls. -/
  ran : RunsOwn s

section Steps

variable {s : State n F A H} {c : ℕ} {i : Fin n} {func : F} {arg0 : A} {h : H}
  {t : Task n F A}

theorem findFree_handle (hfind : findFree s.pool = some i) : (s.pool i).handle = none := by
  have hpass := (firstSlot_eq_some_iff.mp hfind).1
  simpa using hpass

theorem inv_init : Inv (init n F A H) := by
  constructor <;> intros <;> simp_all [init,Creator.entry,RunsOwn]

/-- Users have entries of their own. -/
theorem Inv.exclusive (hs : Inv s) : Exclusive s := by
  intro u u' i hu hu'
  cases u with
  | creator c =>
    cases u' with
    | creator c' => exact congrArg User.creator (hs.creators c c' i hu hu')
    | task h' =>
      obtain ⟨t',ht',hlive',rfl⟩ := hu'
      have hfree := hs.free c t'.a0 hu
      rw [hs.live h' t' ht' hlive'] at hfree
      cases hfree
  | task h =>
    obtain ⟨t,ht,hlive,rfl⟩ := hu
    have hentry := hs.live h t ht hlive
    cases u' with
    | creator c' =>
      have hfree := hs.free c' t.a0 hu'
      rw [hentry] at hfree
      cases hfree
    | task h' =>
      obtain ⟨t',ht',hlive',hsame⟩ := hu'
      have hentry' := hs.live h' t' ht' hlive'
      rw [hsame,hentry] at hentry'
      exact congrArg User.task (Option.some.inj (congrArg TaskObj.handle hentry'))

theorem Inv.poolOk (hs : Inv s) : PoolOk s := ⟨hs.exclusive,hs.ran⟩

/-- The entry of a caller after one has gone on. -/
theorem entry_update {c a : ℕ} {x : Creator n F A} (ha : (update s.creator c x a).entry = some i) :
    (a = c ∧ x.entry = some i) ∨ (a ≠ c ∧ (s.creator a).entry = some i) := by
  by_cases hac : a = c
  · rw [hac,update_self] at ha
    exact Or.inl ⟨hac,ha⟩
  · rw [update_of_ne hac] at ha
    exact Or.inr ⟨hac,ha⟩

/-- A caller goes on to a place whose entry is its own. -/
theorem Inv.setCreator (hs : Inv s) (c : ℕ) (x : Creator n F A)
    (hentry : ∀ i, x.entry = some i → (s.pool i).handle = none ∧
      ∀ c', c' ≠ c → (s.creator c').entry ≠ some i)
    (hstored : ∀ i func arg0, x = .stored i func arg0 → (s.pool i).func = some func) :
    Inv { s with creator := update s.creator c x } := by
  refine ⟨?_,?_,?_,hs.live,hs.owned,hs.args,hs.ran⟩
  · intro a b i ha hb
    rcases entry_update ha with ⟨hac,hx⟩ | ⟨hac,ha'⟩
    · rcases entry_update hb with ⟨hbc,-⟩ | ⟨hbc,hb'⟩
      · rw [hac,hbc]
      · exact absurd hb' ((hentry i hx).2 b hbc)
    · rcases entry_update hb with ⟨-,hx⟩ | ⟨-,hb'⟩
      · exact absurd ha' ((hentry i hx).2 a hac)
      · exact hs.creators a b i ha' hb'
  · intro a i ha
    rcases entry_update ha with ⟨-,hx⟩ | ⟨-,ha⟩
    · exact (hentry i hx).1
    · exact hs.free a i ha
  · intro a i func arg0 ha
    by_cases hac : a = c
    · simp only [hac,update_self] at ha
      exact hstored i func arg0 ha
    · simp only [update_of_ne hac] at ha
      exact hs.stored a i func arg0 ha

/-- A caller that is done, or stopped, holds no entry. -/
theorem Inv.leave (hs : Inv s) (c : ℕ) (x : Creator n F A) (hx : x.entry = none) :
    Inv { s with creator := update s.creator c x } := by
  apply hs.setCreator c x
  · intro i hi
    rw [hx] at hi
    cases hi
  · intro i func arg0 hi
    rw [hi] at hx
    cases hx

/-- The entry of a live task differs from that of a create. -/
theorem Inv.ne_of_free (hs : Inv s) (hi : (s.pool i).handle = none) (ht : s.tasks h = some t)
    (hlive : t.cleared = false) : t.a0 ≠ i := by
  rintro rfl
  rw [hs.live h t ht hlive] at hi
  cases hi

/-- A caller stores its function. -/
theorem Inv.storeFunc (hs : Inv s) (hc : s.creator c = .searched i func arg0) :
    Inv { s with
      pool := update s.pool i { s.pool i with func := some func }
      creator := update s.creator c (.stored i func arg0) } := by
  have hentry : (s.creator c).entry = some i := by
    rw [hc]
    rfl
  have hfree := hs.free c i hentry
  have hpool : Inv { s with pool := update s.pool i { s.pool i with func := some func } } := by
    refine ⟨hs.creators,?_,?_,?_,?_,hs.args,hs.ran⟩
    · intro a j ha
      by_cases hj : j = i
      · simpa [hj] using hfree
      · simpa [hj] using hs.free a j ha
    · intro a j func' arg0' ha
      have hj : j ≠ i := by
        rintro rfl
        have hac : a = c := hs.creators a c j (by rw [ha]; rfl) hentry
        rw [hac,hc] at ha
        cases ha
      simpa [hj] using hs.stored a j func' arg0' ha
    · intro h t ht hlive
      simpa [hs.ne_of_free hfree ht hlive] using hs.live h t ht hlive
    · intro j h hj
      by_cases hji : j = i
      · simp [hji,hfree] at hj
      · exact hs.owned j h (by simpa [hji] using hj)
  apply hpool.setCreator c (.stored i func arg0)
  · intro j hj
    obtain rfl : i = j := Option.some.inj hj
    refine ⟨by simpa using hfree,fun a hac ha => hac (hs.creators a c i ha hentry)⟩
  · intro j func' arg0' hj
    cases hj
    simp

/-- The function in the entry of a task that may start is its own. -/
theorem Inv.own (hs : Inv s) (ht : s.tasks h = some t) (hran : t.ran = none)
    (hr : Regular s (.start h : Event F A H)) : (s.pool t.a0).func = some t.func := by
  rcases hr t ht hran with hlive | hown
  · rw [hs.live h t ht hlive]
  · exact hown

variable [DecidableEq H]

/-- A task after one is entered or changed. -/
theorem update_tasks {tasks : H → Option (Task n F A)} {x t' : Task n F A} {h' : H}
    (ht' : update tasks h (some x) h' = some t') :
    (h' = h ∧ t' = x) ∨ (h' ≠ h ∧ tasks h' = some t') := by
  by_cases hh : h' = h
  · rw [hh,update_self] at ht'
    exact Or.inl ⟨hh,(Option.some.inj ht').symm⟩
  · rw [update_of_ne hh] at ht'
    exact Or.inr ⟨hh,ht'⟩

/-- A handle is published in an entry that nobody else uses. -/
theorem Inv.publish (hs : Inv s) (hno : ∀ c, (s.creator c).entry ≠ some i)
    (hfree : (s.pool i).handle = none) (hfunc : (s.pool i).func = some func)
    (hfresh : s.tasks h = none) :
    Inv { s with
      pool := update s.pool i { s.pool i with handle := some h }
      tasks := update s.tasks h (some ⟨i,arg0,func,arg0,none,false⟩) } := by
  have hcreator : ∀ c j, (s.creator c).entry = some j → j ≠ i := by
    rintro c j hc rfl
    exact hno c hc
  refine ⟨hs.creators,?_,?_,?_,?_,?_,?_⟩
  · intro c j hc
    simpa [hcreator c j hc] using hs.free c j hc
  · intro c j func' arg0' hc
    have hj : j ≠ i := hcreator c j (by rw [hc]; rfl)
    simpa [hj] using hs.stored c j func' arg0' hc
  · intro h' t' ht' hlive'
    rcases update_tasks ht' with ⟨rfl,rfl⟩ | ⟨-,ht'⟩
    · simp [hfunc]
    · simpa [hs.ne_of_free hfree ht' hlive'] using hs.live h' t' ht' hlive'
  · intro j h' hj
    by_cases hji : j = i
    · subst hji
      simp only [update_self] at hj
      obtain rfl := Option.some.inj hj
      exact ⟨_,update_self ..,rfl,rfl⟩
    · simp only [update_of_ne hji] at hj
      obtain ⟨t',ht',hlive',hsame⟩ := hs.owned j h' hj
      have hne : h' ≠ h := by
        rintro rfl
        rw [hfresh] at ht'
        cases ht'
      exact ⟨t',by simpa [hne] using ht',hlive',hsame⟩
  · intro h' t' ht'
    rcases update_tasks ht' with ⟨rfl,rfl⟩ | ⟨-,ht'⟩
    · rfl
    · exact hs.args h' t' ht'
  · intro h' t' r ht' hr
    rcases update_tasks ht' with ⟨rfl,rfl⟩ | ⟨-,ht'⟩
    · cases hr
    · exact hs.ran h' t' r ht' hr

/-- A task that starts calls what its entry holds. -/
theorem Inv.start (hs : Inv s) (ht : s.tasks h = some t)
    (hown : (s.pool t.a0).func = some t.func) :
    Inv { s with
      tasks := update s.tasks h (some { t with ran := some (tempTask s.pool t.a0 t.a1) }) } := by
  refine ⟨hs.creators,hs.free,hs.stored,?_,?_,?_,?_⟩
  · intro h' t' ht' hlive'
    rcases update_tasks ht' with ⟨rfl,rfl⟩ | ⟨-,ht'⟩
    · exact hs.live h' t ht hlive'
    · exact hs.live h' t' ht' hlive'
  · intro j h' hj
    obtain ⟨t',ht',hlive',hsame⟩ := hs.owned j h' hj
    by_cases hh : h' = h
    · rw [hh,ht] at ht'
      obtain rfl := Option.some.inj ht'
      exact ⟨{ t with ran := some (tempTask s.pool t.a0 t.a1) },by simp [hh],hlive',hsame⟩
    · exact ⟨t',by simpa [hh] using ht',hlive',hsame⟩
  · intro h' t' ht'
    rcases update_tasks ht' with ⟨rfl,rfl⟩ | ⟨-,ht'⟩
    · exact hs.args h' t ht
    · exact hs.args h' t' ht'
  · intro h' t' r ht' hr
    rcases update_tasks ht' with ⟨rfl,rfl⟩ | ⟨-,ht'⟩
    · obtain rfl := Option.some.inj hr
      exact Prod.ext hown (hs.args h' t ht)
    · exact hs.ran h' t' r ht' hr

/-- The loop of a delete clears the entry of the live task. -/
theorem Inv.clearEntry_eq (hs : Inv s) (ht : s.tasks h = some t) (hlive : t.cleared = false) :
    clearEntry s.pool h = update s.pool t.a0 ⟨none,none⟩ := by
  have hfirst : firstSlot (fun taskObj => decide (taskObj.handle = some h)) s.pool =
      some t.a0 := by
    apply firstSlot_eq_of_unique
    · simp [hs.live h t ht hlive]
    · intro j hj
      obtain ⟨t',ht',-,hsame⟩ := hs.owned j h (of_decide_eq_true hj)
      rw [ht] at ht'
      obtain rfl := Option.some.inj ht'
      exact hsame.symm
  unfold clearEntry
  rw [hfirst]

/-- A delete clears the entry of a live task. -/
theorem Inv.clear (hs : Inv s) (ht : s.tasks h = some t) (hlive : t.cleared = false) :
    Inv { s with
      pool := clearEntry s.pool h
      tasks := update s.tasks h (some { t with cleared := true }) } := by
  have hentry := hs.live h t ht hlive
  have hother : ∀ h' t', h' ≠ h → s.tasks h' = some t' → t'.cleared = false → t'.a0 ≠ t.a0 := by
    intro h' t' hh ht' hlive' hsame
    have hentry' := hs.live h' t' ht' hlive'
    rw [hsame,hentry] at hentry'
    exact hh (Option.some.inj (congrArg TaskObj.handle hentry')).symm
  rw [hs.clearEntry_eq ht hlive]
  refine ⟨hs.creators,?_,?_,?_,?_,?_,?_⟩
  · intro c j hc
    by_cases hj : j = t.a0
    · simp [hj]
    · simpa [hj] using hs.free c j hc
  · intro c j func' arg0' hc
    have hj : j ≠ t.a0 := by
      rintro rfl
      exact hs.ne_of_free (hs.free c t.a0 (by rw [hc]; rfl)) ht hlive rfl
    simpa [hj] using hs.stored c j func' arg0' hc
  · intro h' t' ht' hlive'
    rcases update_tasks ht' with ⟨rfl,rfl⟩ | ⟨hh,ht'⟩
    · cases hlive'
    · simpa [hother h' t' hh ht' hlive'] using hs.live h' t' ht' hlive'
  · intro j h' hj
    by_cases hji : j = t.a0
    · simp [hji] at hj
    · simp only [update_of_ne hji] at hj
      obtain ⟨t',ht',hlive',hsame⟩ := hs.owned j h' hj
      have hh : h' ≠ h := by
        rintro rfl
        rw [ht] at ht'
        obtain rfl := Option.some.inj ht'
        exact hji hsame.symm
      exact ⟨t',by simpa [hh] using ht',hlive',hsame⟩
  · intro h' t' ht'
    rcases update_tasks ht' with ⟨rfl,rfl⟩ | ⟨-,ht'⟩
    · exact hs.args h' t ht
    · exact hs.args h' t' ht'
  · intro h' t' r ht' hr
    rcases update_tasks ht' with ⟨rfl,rfl⟩ | ⟨-,ht'⟩
    · exact hs.ran h' t r ht hr
    · exact hs.ran h' t' r ht' hr

/-- The kernel deletes a task that is cleared from the pool. -/
theorem Inv.delete (hs : Inv s) (ht : s.tasks h = some t) (hcleared : t.cleared = true) :
    Inv { s with tasks := update s.tasks h none } := by
  have hkeep : ∀ h' t', update s.tasks h none h' = some t' → s.tasks h' = some t' := by
    intro h' t' ht'
    by_cases hh : h' = h
    · rw [hh,update_self] at ht'
      cases ht'
    · rwa [update_of_ne hh] at ht'
  refine ⟨hs.creators,hs.free,hs.stored,?_,?_,?_,?_⟩
  · exact fun h' t' ht' => hs.live h' t' (hkeep h' t' ht')
  · intro j h' hj
    obtain ⟨t',ht',hlive',hsame⟩ := hs.owned j h' hj
    have hh : h' ≠ h := by
      rintro rfl
      rw [ht] at ht'
      obtain rfl := Option.some.inj ht'
      rw [hcleared] at hlive'
      cases hlive'
    exact ⟨t',by simpa [hh] using ht',hlive',hsame⟩
  · exact fun h' t' ht' => hs.args h' t' (hkeep h' t' ht')
  · exact fun h' t' r ht' => hs.ran h' t' r (hkeep h' t' ht')

/-- A caller picks an entry that no create in progress has picked. -/
theorem Inv.search (hs : Inv s) (hr : Regular s (.search c func arg0 : Event F A H)) :
    Inv (step s (.search c func arg0)) := by
  unfold JacintoTaskPool.step
  simp only
  split
  · next hidle =>
    split
    · next i hfind =>
      apply hs.setCreator c (.searched i func arg0)
      · intro j hj
        obtain rfl : i = j := Option.some.inj hj
        exact ⟨findFree_handle hfind,fun c' _ => hr hidle i hfind c'⟩
      · intro j func' arg0' hj
        cases hj
    · exact hs.leave c .asserted rfl
  · exact hs

/-- A create ends with a task, or with none. -/
theorem Inv.create (hs : Inv s) {result : Option H}
    (ha : Allowed s (.create c result : Event F A H)) : Inv (step s (.create c result)) := by
  unfold JacintoTaskPool.step
  simp only
  split
  · next i func arg0 hc =>
    have hentry : (s.creator c).entry = some i := by
      rw [hc]
      rfl
    have hfree := hs.free c i hentry
    have hleft := hs.leave c .idle rfl
    cases result with
    | none =>
      have hsame : update s.pool i { s.pool i with handle := none } = s.pool := by
        rw [← hfree]
        exact update_eq_self i s.pool
      rw [hsame]
      exact hleft
    | some h =>
      refine hleft.publish ?_ hfree (hs.stored c i func arg0 hc) ha
      intro c' hc'
      rcases entry_update hc' with ⟨-,hidle⟩ | ⟨hcc,hc'⟩
      · cases hidle
      · exact hcc (hs.creators c' c i hc' hentry)
  · exact hs

/-- Allowed, regular steps keep the invariant. -/
theorem Inv.step (hs : Inv s) (e : Event F A H) (ha : Allowed s e) (hr : Regular s e) :
    Inv (step s e) := by
  cases e with
  | search c func arg0 => exact hs.search hr
  | storeFunc c =>
    unfold JacintoTaskPool.step
    simp only
    split
    · next i func arg0 hc => exact hs.storeFunc hc
    · exact hs
  | create c result => exact hs.create ha
  | start h =>
    unfold JacintoTaskPool.step
    simp only
    split
    · next t ht =>
      split
      · next hran => exact hs.start ht (hs.own ht (Option.isNone_iff_eq_none.mp hran) hr)
      · exact hs
    · exact hs
  | clear h =>
    unfold JacintoTaskPool.step
    simp only
    split
    · next t ht =>
      split
      · exact hs
      · next hlive => exact hs.clear ht (by simpa using hlive)
    · exact hs
  | delete h =>
    unfold JacintoTaskPool.step
    simp only
    split
    · next t ht =>
      split
      · next hcleared => exact hs.delete ht hcleared
      · exact hs
    · exact hs

/-- A delete frees its own entry. -/
theorem Inv.deleteOk (hs : Inv s) (e : Event F A H) : DeleteOk s e := by
  cases e with
  | clear h =>
    intro t ht hlive
    unfold JacintoTaskPool.step
    simp only [ht,hlive]
    exact hs.clearEntry_eq ht hlive
  | _ => trivial

/-- A step leads to a state as promised only when it is regular. -/
theorem regular_of_poolOk (e : Event F A H) (hok : PoolOk (step s e)) : Regular s e := by
  cases e with
  | search c func arg0 =>
    intro hidle i hfind c' hc'
    have hcc : c' ≠ c := by
      rintro rfl
      rw [hidle] at hc'
      cases hc'
    have hsame := hok.1 (.creator c') (.creator c) i
      (by simpa [Uses,step,hidle,hfind,hcc] using hc')
      (by simp [Uses,step,hidle,hfind,Creator.entry])
    exact hcc (User.creator.inj hsame)
  | start h =>
    intro t ht hran
    right
    have hcall := hok.2 h { t with ran := some (tempTask s.pool t.a0 t.a1) }
      (tempTask s.pool t.a0 t.a1) (by simp [step,ht,hran]) rfl
    exact congrArg Prod.fst hcall
  | _ => trivial

end Steps

/-- Along every run in which the kernel gives no handle twice, entries are
exclusive, tasks run their creators' functions and deletes free their own
entries exactly when no search picks an entry that a create in progress has
picked and no task starts after its entry was cleared, unless its function is
there again. -/
theorem poolOk_iff_regular [DecidableEq H] (events : List (Event F A H))
    (hallowed : Guarded step Allowed (init n F A H) events) :
    Along step PoolOk (init n F A H) events ∧ Guarded step DeleteOk (init n F A H) events ↔
      Guarded step Regular (init n F A H) events := by
  apply along_and_guarded_iff_of_allowed (I := Inv) (fun s hs => hs.poolOk)
    (fun s e hs ha hr => hs.step e ha hr) ?_ inv_init hallowed
  intro s e hs ha
  constructor
  · rintro ⟨hok,-⟩
    exact regular_of_poolOk e hok
  · intro hr
    exact ⟨(hs.step e ha hr).poolOk,hs.deleteOk e⟩

/-- Two creates overlap: while the first has picked the second entry, the
task of the first entry is deleted, and the second create picks that one. -/
def overlapping : List (Event ℕ ℕ ℕ) :=
  [.search 0 10 20,.storeFunc 0,.create 0 (some 5),.start 5,
    .search 0 11 21,.clear 5,.search 1 12 22,.storeFunc 0,.storeFunc 1,
    .create 1 (some 7),.delete 5,.create 0 (some 6),.start 6,.start 7,.clear 6,.delete 6]

theorem overlapping_ok :
    Along step PoolOk (init maxTask ℕ ℕ ℕ) overlapping ∧
      Guarded step DeleteOk (init maxTask ℕ ℕ ℕ) overlapping := by
  have hallowed : Guarded step Allowed (init maxTask ℕ ℕ ℕ) overlapping := by
    refine ⟨trivial,trivial,?_,trivial,trivial,trivial,trivial,trivial,trivial,?_,trivial,?_,
      trivial,trivial,trivial,trivial,trivial⟩
    · change _ = none
      rfl
    · change _ = none
      rfl
    · change _ = none
      rfl
  apply (poolOk_iff_regular overlapping hallowed).mpr
  refine ⟨?_,trivial,trivial,?_,?_,trivial,?_,trivial,trivial,trivial,trivial,trivial,?_,?_,
    trivial,trivial,trivial⟩
  · intro _ i _ c hc
    cases hc
  · intro t ht _
    obtain rfl := Option.some.inj ht
    exact Or.inl rfl
  · intro _ i _ c hc
    match c with
    | 0 => cases hc
    | c + 1 => cases hc
  · intro _ i hi c hc
    -- The first entry is free again.
    obtain rfl := Option.some.inj hi
    match c with
    | 0 => cases hc
    | c + 1 => cases hc
  · intro t ht _
    obtain rfl := Option.some.inj ht
    exact Or.inl rfl
  · intro t ht _
    obtain rfl := Option.some.inj ht
    exact Or.inl rfl

/-- Two creates pick the same entry, and the first task runs the function of
the second creator. -/
theorem wrong_function_runs :
    ¬ RunsOwn (run step (init maxTask ℕ ℕ ℕ)
      [.search 0 10 20,.search 1 11 21,.storeFunc 0,.storeFunc 1,.create 0 (some 5),.start 5]) := by
  intro h
  have hcall := h 5 ⟨⟨0,by decide⟩,20,10,20,some (some 11,20),false⟩ (some 11,20) rfl rfl
  simp at hcall

end EthernetFirmware.JacintoTaskPool
