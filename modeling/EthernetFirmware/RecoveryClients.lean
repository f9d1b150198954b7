import EthernetFirmware.ProxyClientNotify
import EthernetFirmware.RecoveryMonitor

/-!
# Clients under recovery

The recovery monitor together with the recovery tasks of the client cores.
A hardware error notification makes a client close its DMA and confirm the
teardown; the completion notification makes it open the DMA again. Every core
has one task with one mailbox; the task takes no notification while it waits
for the answer to a confirmation. Notifications reach the mailbox in the order
they were sent, and none is lost.

A client object is known to the task by the token it holds. It opens its DMA
when its attach succeeds.
-/

namespace EthernetFirmware.RecoveryClients

open Function RemoteConfig ProxyServerClients ProxyServerRequests ProxyServerTasks GuardedRuns
open RecoveryMonitor (Recovery Serving Place Observation Phase places mem_places nodup_places)
open ProxyClientNotify (notifyHwerror notifyHwrecoveryComplete)

variable {procs tasks : ℕ}

/-- What `CpswRemoteApp_hwRecoveryTask` of a core is doing. -/
inductive RecoveryTask where
  /-- It takes the next notification. -/
  | ready
  /-- It has sent the confirmation of the client object with the token. -/
  | sent (token : U32)
  /-- The server is serving that confirmation. -/
  | served (token : U32)
  deriving DecidableEq

/-- The task waits for the answer to a confirmation with the token. -/
def RecoveryTask.waitsFor : RecoveryTask → U32 → Bool
  | .ready,_ => false
  | .sent t',t | .served t',t => t' == t

/-- The server with its monitor, and the client cores. -/
structure System (procs tasks : ℕ) where
  /-- Server and monitor. -/
  server : Recovery procs tasks
  /-- Token and type of the notifications on their way to a core's recovery
  task or in its mailbox, oldest first. -/
  inbox : Fin procs → List (U32 × U32)
  /-- The recovery task of each core. -/
  recovery : Fin procs → RecoveryTask
  /-- Whether the client object of a core with a token has its DMA open; none
  without such an object. -/
  dma : Fin procs × U32 → Option Bool

/-- What happens in the system. -/
inductive Event (procs tasks : ℕ) where
  /-- A request task of the server begins a request of any kind but a teardown
  confirmation. -/
  | request (task : Fin tasks) (r : Request procs)
  /-- A request task begins the confirmation that a core has sent. -/
  | confirm (task : Fin tasks) (core : Fin procs) (remoteEndPt : U32) (clientId : U8)
      (reqId : U32)
  /-- A request task does the rest of its request and answers it. -/
  | finish (task : Fin tasks) (x : Outcomes)
  /-- The monitor takes its next step. -/
  | monitor (o : Observation)
  /-- The recovery task of a core takes its next notification. -/
  | recoveryTask (core : Fin procs)

/-- Client and type of the notification that the monitor's next step sends. -/
def notification (s : Recovery procs tasks) : Option (Place procs × U32) :=
  match s.phase with
  | .sending p _ => some (p,notifyHwerror)
  | .announcing p _ => some (p,notifyHwrecoveryComplete)
  | _ => none

/-- `CpswRemoteApp_hwRecoveryNotify`: the notification is posted, with the token
of the client object, at the core that the object names. -/
def post (s : System procs tasks) : Option (Place procs × U32) → Fin procs → List (U32 × U32)
  | none,core => s.inbox core
  | some (p,n),core =>
    if core.val = (s.server.at p).coreId then s.inbox core ++ [((s.server.at p).token,n)]
    else s.inbox core

/-- `CpswRemoteApp_hwRecoveryTask` for one notification: the DMA is closed and
the teardown confirmed, or it is opened again. -/
def hwRecoveryTask (s : System procs tasks) (core : Fin procs) : System procs tasks :=
  match s.recovery core,s.inbox core with
  | .ready,(t,n) :: rest =>
    let s' := { s with inbox := update s.inbox core rest }
    match s.dma (core,t) with
    | none => s'
    | some _ =>
      if n = notifyHwerror then
        { s' with
          dma := update s.dma (core,t) (some false)
          recovery := update s.recovery core (.sent t) }
      else if n = notifyHwrecoveryComplete then { s' with dma := update s.dma (core,t) (some true) }
      else s'
  | _,_ => s

/-- A request task begins a request other than a teardown confirmation. -/
def beginOther (s : System procs tasks) (task : Fin tasks) (r : Request procs) :
    System procs tasks :=
  if r.cmd = .teardownCompletion then s
  else { s with server := RecoveryMonitor.step s.server (.receive task r) }

/-- A request task begins the confirmation of a core's recovery task. Without a
client object of the token it is answered at once. -/
def beginConfirm (s : System procs tasks) (task : Fin tasks) (core : Fin procs)
    (remoteEndPt : U32) (clientId : U8) (reqId : U32) : System procs tasks :=
  match s.recovery core,s.server.serving task with
  | .sent t,none =>
    { s with
      server := RecoveryMonitor.step s.server
        (.receive task ⟨core,remoteEndPt,clientId,t,reqId,.teardownCompletion⟩)
      recovery := update s.recovery core
        (if (getClient s.server.world core t).isSome then .served t else .ready) }
  | _,_ => s

/-- A request task does the rest of its request. A client whose attach succeeds
opens its DMA, and a recovery task whose confirmation is answered goes on. -/
def finishRequest (s : System procs tasks) (task : Fin tasks) (x : Outcomes) :
    System procs tasks :=
  match s.server.serving task with
  | none => s
  | some a =>
    let res := (ProxyServerTasks.finishRequest s.server.world x a.request a.rest).2
    { s with
      server := RecoveryMonitor.step s.server (.finish task x)
      recovery := if a.rest = .teardownCompletion a.rest.hClient then
          update s.recovery a.request.remoteProcId .ready
        else s.recovery
      dma := if a.rest.attachPort.isSome = true ∧ res.status = sok then
          update s.dma (a.request.remoteProcId,res.token) (some true)
        else s.dma }

/-- One event. -/
def step (s : System procs tasks) : Event procs tasks → System procs tasks
  | .request task r => beginOther s task r
  | .confirm task core e id r => beginConfirm s task core e id r
  | .finish task x => finishRequest s task x
  | .monitor o =>
    { s with
      server := RecoveryMonitor.step s.server (.monitor o)
      inbox := post s (notification s.server) }
  | .recoveryTask core => hwRecoveryTask s core

/-- An initialised server, and cores without clients. -/
def initSystem (procs tasks : ℕ) (csum : Bool) (cfg : List VirtPortCfg) :
    System procs tasks where
  server := RecoveryMonitor.initRecovery procs tasks csum cfg
  inbox := fun _ => []
  recovery := fun _ => .ready
  dma := fun _ => none

/-- Notifications under way to the client object of a core with a token. -/
def pending (s : System procs tasks) (core : Fin procs) (t : U32) : List U32 :=
  ((s.inbox core).filter fun m => m.1 = t).map Prod.snd

/-- No client has its DMA open while the reset runs. -/
def ClosedForReset (s : System procs tasks) : Prop :=
  s.server.phase = .resetting ∨ s.server.phase = .linkWait →
    ∀ p, (s.server.at p).attached = true → s.dma (p.1,(s.server.at p).token) ≠ some true

/-- While the monitor waits, a client without a notification under way has its
DMA open. -/
def OpenAgain (s : System procs tasks) : Prop :=
  s.server.phase = .waiting →
    ∀ p, (s.server.at p).attached = true → pending s p.1 (s.server.at p).token = [] →
      s.dma (p.1,(s.server.at p).token) ≠ some false

/-- The monitor has not counted the place in a round that is under way. -/
def Uncounted : Phase procs → Place procs → Prop
  | .waiting,_ => True
  | .counting rest,p => p ∈ rest
  | .notifying _,_ | .sending _ _,_ | .polling _,_ | .draining,_ | .resetting,_ | .linkWait,_
  | .completing _,_ | .announcing _ _,_ => False

/-- What an attach that stores its token is asked for: the monitor waits, or its
first count has still to reach the slot; no other client of the core holds the
token, nothing is under way for it and no confirmation of it is waited for; and
it succeeds, unless its client object has its DMA open anyway. -/
def AttachAdmitted (s : System procs tasks) (x : Outcomes) (a : Serving procs) (v : U32) : Prop :=
  mtuOk s.server.world x a.request.remoteProcId = true →
    Uncounted s.server.phase a.place ∧
    (∀ j, (s.server.at (a.request.remoteProcId,j)).attached = true →
      (s.server.at (a.request.remoteProcId,j)).token ≠ virtPort2Token v) ∧
    pending s a.request.remoteProcId (virtPort2Token v) = [] ∧
    (s.recovery a.request.remoteProcId).waitsFor (virtPort2Token v) = false ∧
    ((ProxyServerTasks.finishRequest s.server.world x a.request a.rest).2.status = sok ∨
      s.dma (a.request.remoteProcId,virtPort2Token v) ≠ some false)

/-- The rest of an attach is admitted, and a confirmation is served before the
slot it found changes hands. -/
def RestAdmitted (s : System procs tasks) (x : Outcomes) (a : Serving procs) : Rest → Prop
  | .attach v _ | .attachExt v _ => AttachAdmitted s x a v
  | .detach _ => True
  | .teardownCompletion _ => s.server.changedAt a.place < a.since

/-- What each event is asked for. -/
def Admitted (s : System procs tasks) : Event procs tasks → Prop
  | .finish task x => ∀ a ∈ s.server.serving task, RestAdmitted s x a a.rest
  | .request _ _ | .confirm _ _ _ _ _ | .monitor _ | .recoveryTask _ => True

section Decidability

instance decidableUncounted : (ph : Phase procs) → (p : Place procs) → Decidable (Uncounted ph p)
  | .waiting,_ => instDecidableTrue
  | .counting _,_ => inferInstanceAs (Decidable (_ ∈ _))
  | .notifying _,_ | .sending _ _,_ | .polling _,_ | .draining,_ | .resetting,_ | .linkWait,_
  | .completing _,_ | .announcing _ _,_ => instDecidableFalse

instance (s : System procs tasks) (x : Outcomes) (a : Serving procs) (v : U32) :
    Decidable (AttachAdmitted s x a v) :=
  inferInstanceAs (Decidable (_ → _ ∧ _ ∧ _ ∧ _ ∧ _))

instance decidableRestAdmitted (s : System procs tasks) (x : Outcomes) (a : Serving procs) :
    (rest : Rest) → Decidable (RestAdmitted s x a rest)
  | .attach v _ | .attachExt v _ => inferInstanceAs (Decidable (AttachAdmitted s x a v))
  | .detach _ => instDecidableTrue
  | .teardownCompletion _ => inferInstanceAs (Decidable (_ < _))

instance decidableAdmitted (s : System procs tasks) :
    (e : Event procs tasks) → Decidable (Admitted s e)
  | .finish task x => inferInstanceAs (Decidable (∀ a ∈ s.server.serving task,
      RestAdmitted s x a a.rest))
  | .request _ _ | .confirm _ _ _ _ _ | .monitor _ | .recoveryTask _ => instDecidableTrue

end Decidability

/-- How far a client is in the round of the monitor. -/
inductive Stage where
  /-- It has not been told about the error of this round. -/
  | before
  /-- It has, and the reset has not started. -/
  | notified
  /-- The reset has started, and it has not been told about the completion. -/
  | held

/-- Stage of the client at a place. -/
def stage (ph : Phase procs) (p : Place procs) : Stage :=
  match ph with
  | .waiting | .counting _ => .before
  | .notifying rest => if p ∈ rest then .before else .notified
  | .sending q rest => if p ∈ q :: rest then .before else .notified
  | .polling _ | .draining => .notified
  | .resetting | .linkWait => .held
  | .completing rest => if p ∈ rest then .held else .before
  | .announcing q rest => if p ∈ q :: rest then .held else .before

/-- What concerns one client. -/
structure View where
  /-- Notifications under way to it. -/
  pending : List U32
  /-- Its task waits for the answer to its confirmation. -/
  waits : Bool
  /-- State of its DMA. -/
  dma : Option Bool
  /-- Its idle mark at the server. -/
  idle : Bool

/-- Only completions are under way. -/
def Completions (q : List U32) : Prop := ∀ n ∈ q, n = notifyHwrecoveryComplete

/-- What holds of a client at a stage. -/
def Follows : Stage → View → Prop
  | .before,x => Completions x.pending ∧ x.waits = false ∧ (x.dma = some false → x.pending ≠ [])
  | .notified,x =>
    ((∃ q, Completions q ∧ x.pending = q ++ [notifyHwerror]) ∧ x.waits = false ∧ x.idle = false) ∨
      (x.pending = [] ∧ x.dma ≠ some true ∧ (x.waits = true → x.idle = false))
  | .held,x => x.pending = [] ∧ x.waits = false ∧ x.dma ≠ some true

/-- View of the client at a place. -/
def view (s : System procs tasks) (p : Place procs) : View where
  pending := pending s p.1 (s.server.at p).token
  waits := (s.recovery p.1).waitsFor (s.server.at p).token
  dma := s.dma (p.1,(s.server.at p).token)
  idle := (s.server.at p).isIdle

section Views

variable {x : View} {st : Stage}

/-- The error notification is sent to a client whose mark is clear. -/
theorem follows_error (h : Follows .before x) (hidle : x.idle = false) :
    Follows .notified { x with pending := x.pending ++ [notifyHwerror] } :=
  Or.inl ⟨⟨x.pending,h.1,rfl⟩,h.2.1,hidle⟩

/-- The completion notification is sent. -/
theorem follows_complete (h : Follows .held x) :
    Follows .before { x with pending := x.pending ++ [notifyHwrecoveryComplete] } := by
  obtain ⟨hpending,hwaits,-⟩ := h
  refine ⟨?_,hwaits,fun _ => by simp⟩
  intro n hn
  rw [hpending] at hn
  exact List.mem_singleton.mp hn

/-- The reset starts with the client idle. -/
theorem follows_reset (h : Follows .notified x) (hidle : x.idle = true) : Follows .held x := by
  rcases h with ⟨-,-,hbusy⟩ | ⟨hpending,hdma,hwaits⟩
  · rw [hidle] at hbusy
    contradiction
  · refine ⟨hpending,?_,hdma⟩
    cases hw : x.waits with
    | false => rfl
    | true => exact absurd ((hwaits hw).symm.trans hidle) (by decide)

/-- The mark of a client is cleared. -/
theorem follows_clear (h : Follows st x) : Follows st { x with idle := false } := by
  cases st with
  | before => exact h
  | held => exact h
  | notified =>
    rcases h with ⟨hpending,hwaits,-⟩ | ⟨hpending,hdma,-⟩
    · exact Or.inl ⟨hpending,hwaits,rfl⟩
    · exact Or.inr ⟨hpending,hdma,fun _ => rfl⟩

/-- A confirmation is answered without a client. -/
theorem follows_answered (h : Follows st x) : Follows st { x with waits := false } := by
  cases st with
  | before => exact ⟨h.1,rfl,h.2.2⟩
  | held => exact ⟨h.1,rfl,h.2.2⟩
  | notified =>
    rcases h with ⟨hpending,-,hidle⟩ | ⟨hpending,hdma,-⟩
    · exact Or.inl ⟨hpending,rfl,hidle⟩
    · exact Or.inr ⟨hpending,hdma,fun hno => absurd hno Bool.false_ne_true⟩

/-- The confirmation a client waits for is served. -/
theorem follows_confirm (h : Follows st x) (hw : x.waits = true) (idle : Bool) :
    Follows st { x with waits := false, idle := idle } := by
  cases st with
  | before => exact absurd (hw.symm.trans h.2.1) (by decide)
  | held => exact absurd (hw.symm.trans h.2.1) (by decide)
  | notified =>
    rcases h with ⟨-,hno,-⟩ | ⟨hpending,hdma,-⟩
    · exact absurd (hw.symm.trans hno) (by decide)
    · exact Or.inr ⟨hpending,hdma,fun h => absurd h Bool.false_ne_true⟩

/-- What taking the oldest notification does to a client. -/
def View.take (x : View) (n : U32) (q : List U32) : View :=
  match x.dma with
  | none => { x with pending := q }
  | some _ =>
    if n = notifyHwerror then { x with pending := q, waits := true, dma := some false }
    else if n = notifyHwrecoveryComplete then { x with pending := q, dma := some true }
    else { x with pending := q }

/-- The oldest notification of a client is taken. -/
theorem follows_take {n : U32} {q : List U32} (h : Follows st x) (hq : x.pending = n :: q) :
    Follows st (x.take n q) := by
  have hne : notifyHwrecoveryComplete ≠ notifyHwerror := by decide
  cases st with
  | before =>
    obtain ⟨hcomp,hwaits,hopen⟩ := h
    rw [hq] at hcomp
    have hn := hcomp n List.mem_cons_self
    have hrest : Completions q := fun m hm => hcomp m (List.mem_cons_of_mem n hm)
    rw [View.take]
    cases hd : x.dma with
    | none => exact ⟨hrest,hwaits,fun h => by simp at h⟩
    | some b =>
      rw [hn]
      simp only [hne,if_false,if_true]
      exact ⟨hrest,hwaits,fun h => by simp at h⟩
  | held => exact absurd (hq.symm.trans h.1) (by simp)
  | notified =>
    rcases h with ⟨⟨c,hcomp,hpending⟩,hwaits,hidle⟩ | ⟨hpending,-⟩
    · rw [hq] at hpending
      rw [View.take]
      cases c with
      | nil =>
        obtain ⟨rfl,rfl⟩ := List.cons.inj hpending
        cases hd : x.dma with
        | none => exact Or.inr ⟨rfl,by simp,fun _ => hidle⟩
        | some b => exact Or.inr ⟨by simp,by simp,fun _ => by simpa using hidle⟩
      | cons m c =>
        obtain ⟨rfl,rfl⟩ := List.cons.inj hpending
        have hn := hcomp n List.mem_cons_self
        have hrest : Completions c := fun m hm => hcomp m (List.mem_cons_of_mem n hm)
        cases hd : x.dma with
        | none => exact Or.inl ⟨⟨c,hrest,rfl⟩,hwaits,hidle⟩
        | some b =>
          rw [hn]
          simp only [hne,if_false,if_true]
          exact Or.inl ⟨⟨c,hrest,rfl⟩,hwaits,hidle⟩
    · exact absurd (hq.symm.trans hpending) (by simp)

end Views

/-- Notifications under way once one more is posted. -/
theorem pending_post (s : System procs tasks) (q : Place procs) (n : U32) (core : Fin procs)
    (t : U32) :
    pending { s with inbox := post s (some (q,n)) } core t =
      if core.val = (s.server.at q).coreId ∧ (s.server.at q).token = t then pending s core t ++ [n]
      else pending s core t := by
  unfold pending post
  dsimp only
  by_cases hc : core.val = (s.server.at q).coreId
  · rw [if_pos hc,List.filter_append,List.map_append]
    by_cases ht : (s.server.at q).token = t
    · simp [hc,ht]
    · simp [ht]
  · simp [hc]

/-- Notifications under way before the oldest one. -/
theorem pending_cons {s : System procs tasks} {core : Fin procs} {t n : U32}
    {rest : List (U32 × U32)} (h : s.inbox core = (t,n) :: rest) (core' : Fin procs) (t' : U32) :
    pending s core' t' =
      if core' = core ∧ t' = t then
        n :: pending { s with inbox := update s.inbox core rest } core' t'
      else pending { s with inbox := update s.inbox core rest } core' t' := by
  unfold pending
  dsimp only
  by_cases hc : core' = core
  · subst hc
    rw [update_self,h]
    by_cases ht : t' = t
    · simp [ht]
    · simp [ht,Ne.symm ht]
  · simp [hc]

/-- Slots that the current walk of the monitor has still to deal with. -/
def walk : Phase procs → List (Place procs)
  | .counting rest | .notifying rest | .polling rest | .completing rest => rest
  | .sending p rest | .announcing p rest => p :: rest
  | .waiting | .draining | .resetting | .linkWait => []

section Monitor

variable {s : Recovery procs tasks} {o : Observation} {p : Place procs}

/-- A step of the monitor leaves a client object alone or clears its mark. -/
theorem at_monitor (s : Recovery procs tasks) (o : Observation) (p : Place procs) :
    (RecoveryMonitor.step s (.monitor o)).at p = s.at p ∨
      (RecoveryMonitor.step s (.monitor o)).at p = { s.at p with isIdle := false } := by
  have hworld : ∀ t : Recovery procs tasks, t.world = s.world → t.at p = s.at p := by
    intro t ht
    rw [Recovery.at,Recovery.at,ht]
  have hclear : ∀ q, (RecoveryMonitor.clearMark s q).at p = s.at p ∨
      (RecoveryMonitor.clearMark s q).at p = { s.at p with isIdle := false } := by
    intro q
    rw [RecoveryMonitor.at_clearMark]
    split
    · exact Or.inr rfl
    · exact Or.inl rfl
  have hmove := RecoveryMonitor.monitorStep_cases s o
  change (RecoveryMonitor.monitorStep s o).at p = _ ∨ (RecoveryMonitor.monitorStep s o).at p = _
  generalize RecoveryMonitor.monitorStep s o = s' at hmove ⊢
  cases hmove with
  | count q rest h =>
    exact Or.inl (hworld (RecoveryMonitor.countPlace s q) RecoveryMonitor.world_countPlace)
  | pollVisit q rest h =>
    exact Or.inl (hworld (RecoveryMonitor.pollPlace s q) RecoveryMonitor.world_pollPlace)
  | clear q rest h hu => exact hclear q
  | clearAgain q rest h => exact hclear q
  | _ => exact Or.inl rfl

/-- A step of the monitor neither serves requests nor gives slots away. -/
theorem serving_monitor (s : Recovery procs tasks) (o : Observation) :
    (RecoveryMonitor.step s (.monitor o)).serving = s.serving ∧
      (RecoveryMonitor.step s (.monitor o)).changedAt = s.changedAt ∧
      (RecoveryMonitor.step s (.monitor o)).time = s.time + 1 := by
  have hmove := RecoveryMonitor.monitorStep_cases s o
  simp only [RecoveryMonitor.step]
  generalize RecoveryMonitor.monitorStep s o = s' at hmove ⊢
  cases hmove with
  | count q rest h =>
    obtain ⟨ht,-,hc,-,-,hs⟩ := RecoveryMonitor.countPlace_dates s q
    exact ⟨hs,hc,congrArg (· + 1) ht⟩
  | pollVisit q rest h =>
    obtain ⟨ht,-,hc,-,-,hs⟩ := RecoveryMonitor.pollPlace_dates s q
    exact ⟨hs,hc,congrArg (· + 1) ht⟩
  | _ => exact ⟨rfl,rfl,rfl⟩

/-- The walks of the monitor visit no slot twice. -/
theorem walk_monitor (h : (walk s.phase).Nodup) :
    (walk (RecoveryMonitor.step s (.monitor o)).phase).Nodup := by
  have hplaces := nodup_places procs
  change (walk (RecoveryMonitor.monitorStep s o).phase).Nodup
  rw [RecoveryMonitor.monitorStep]
  cases hph : s.phase with
  | waiting => dsimp only; split <;> simp [walk,hplaces,hph]
  | counting rest | polling rest =>
    rw [hph] at h
    cases rest with
    | nil => dsimp only; split <;> simp [walk,hplaces,RecoveryMonitor.startPoll]
    | cons q rest => exact (List.nodup_cons.mp h).2
  | notifying rest =>
    rw [hph] at h
    cases rest with
    | nil => exact hplaces
    | cons q rest =>
      dsimp only
      split
      · exact h
      · exact (List.nodup_cons.mp h).2
  | completing rest =>
    rw [hph] at h
    cases rest with
    | nil => exact List.nodup_nil
    | cons q rest =>
      dsimp only
      split
      · exact h
      · exact (List.nodup_cons.mp h).2
  | sending q rest | announcing q rest =>
    rw [hph] at h
    exact (List.nodup_cons.mp h).2
  | draining => dsimp only; split <;> simp [walk,hph]
  | resetting => dsimp only; split <;> simp [walk,hph]
  | linkWait => dsimp only; split <;> simp [walk,hplaces,hph]

/-- The client whose notification the monitor sends next is in use when its mark
is cleared. -/
theorem inUse_of_notification {n : U32}
    (h : notification (RecoveryMonitor.step s (.monitor o)) = some (p,n)) :
    (s.at p).inUse = true := by
  have hmove : notification (RecoveryMonitor.monitorStep s o) = some (p,n) := h
  rw [RecoveryMonitor.monitorStep] at hmove
  cases hph : s.phase with
  | notifying rest | completing rest =>
    rw [hph] at hmove
    cases rest with
    | nil => simp [notification,RecoveryMonitor.startPoll] at hmove
    | cons q rest =>
      dsimp only at hmove
      split at hmove
      · next hu =>
        obtain rfl := (Prod.mk.inj (Option.some.inj hmove)).1
        exact hu
      · simp [notification] at hmove
  | counting rest | polling rest =>
    rw [hph] at hmove
    cases rest with
    | nil =>
      dsimp only at hmove
      split at hmove <;> simp [notification,RecoveryMonitor.startPoll] at hmove
    | cons q rest => simp [notification] at hmove
  | waiting | draining | resetting | linkWait =>
    rw [hph] at hmove
    dsimp only at hmove
    split at hmove <;> simp [notification,hph] at hmove
  | sending q rest | announcing q rest =>
    rw [hph] at hmove
    simp [notification] at hmove

/-- Sending a client the error notification. -/
theorem stage_sending {q : Place procs} {rest : List (Place procs)}
    (hph : s.phase = .sending q rest) (h : (walk s.phase).Nodup) :
    let ph := (RecoveryMonitor.step s (.monitor o)).phase
    (p = q → stage s.phase p = .before ∧ stage ph p = .notified) ∧
      (p ≠ q → stage ph p = stage s.phase p) := by
  intro ph
  have hnext : ph = .notifying rest := by
    simp only [ph,RecoveryMonitor.step,RecoveryMonitor.monitorStep,hph]
    rfl
  rw [hph] at h
  rw [hnext,hph]
  constructor
  · rintro rfl
    have hout := (List.nodup_cons.mp h).1
    exact ⟨by simp [stage],by simp [stage,hout]⟩
  · intro hne
    simp [stage,hne]

/-- Sending a client the completion notification. -/
theorem stage_announcing {q : Place procs} {rest : List (Place procs)}
    (hph : s.phase = .announcing q rest) (h : (walk s.phase).Nodup) :
    let ph := (RecoveryMonitor.step s (.monitor o)).phase
    (p = q → stage s.phase p = .held ∧ stage ph p = .before) ∧
      (p ≠ q → stage ph p = stage s.phase p) := by
  intro ph
  have hnext : ph = .completing rest := by
    simp only [ph,RecoveryMonitor.step,RecoveryMonitor.monitorStep,hph]
    rfl
  rw [hph] at h
  rw [hnext,hph]
  constructor
  · rintro rfl
    have hout := (List.nodup_cons.mp h).1
    exact ⟨by simp [stage],by simp [stage,hout]⟩
  · intro hne
    simp [stage,hne]

/-- A step that sends nothing keeps the stage of a client in use, except for the
start of the reset. -/
theorem stage_quiet (hu : (s.at p).inUse = true) (hnone : notification s = none) :
    let ph := (RecoveryMonitor.step s (.monitor o)).phase
    stage ph p = stage s.phase p ∨
      (ph = .resetting ∧
        (s.phase = .draining ∨ s.phase = .counting [] ∧ s.numTotalClients = 0)) := by
  intro ph
  have hph' : ph = (RecoveryMonitor.monitorStep s o).phase := rfl
  clear_value ph
  rw [RecoveryMonitor.monitorStep] at hph'
  cases hph : s.phase with
  | waiting | resetting | linkWait =>
    left
    rw [hph',hph]
    dsimp only
    split <;> simp [stage,hph,mem_places]
  | counting rest =>
    rw [hph] at hph'
    cases rest with
    | nil =>
      dsimp only at hph'
      split at hph'
      · exact Or.inl (by simp [hph',stage,mem_places])
      · next hn => exact Or.inr ⟨hph',Or.inr ⟨rfl,by simpa using hn⟩⟩
    | cons q rest => exact Or.inl (by simp [hph',stage])
  | notifying rest | completing rest =>
    left
    rw [hph] at hph'
    cases rest with
    | nil => simp [hph',stage,RecoveryMonitor.startPoll]
    | cons q rest =>
      dsimp only at hph'
      split at hph'
      · simp [hph',stage]
      · next hq =>
        have hne : p ≠ q := fun hpq => hq (by rw [← hpq]; exact hu)
        simp [hph',stage,hne]
  | polling rest =>
    left
    rw [hph',hph]
    cases rest with
    | nil => dsimp only; split <;> simp [stage,RecoveryMonitor.startPoll]
    | cons q rest => simp [stage]
  | draining =>
    rw [hph] at hph'
    dsimp only at hph'
    split at hph'
    · exact Or.inr ⟨hph',Or.inl rfl⟩
    · exact Or.inl (by simp [hph',stage,hph])
  | sending q rest | announcing q rest =>
    simp [notification,hph] at hnone

/-- How a step of the monitor moves a client in use. -/
theorem stage_monitor (h : (walk s.phase).Nodup) (hu : (s.at p).inUse = true) :
    let ph := (RecoveryMonitor.step s (.monitor o)).phase
    (notification s = some (p,notifyHwerror) ∧ stage s.phase p = .before ∧
        stage ph p = .notified) ∨
      (notification s = some (p,notifyHwrecoveryComplete) ∧ stage s.phase p = .held ∧
        stage ph p = .before) ∨
      ((notification s).map Prod.fst ≠ some p ∧ stage ph p = stage s.phase p) ∨
      (notification s = none ∧ ph = .resetting ∧
        (s.phase = .draining ∨ s.phase = .counting [] ∧ s.numTotalClients = 0)) := by
  intro ph
  have hquiet : notification s = none →
      ((notification s).map Prod.fst ≠ some p ∧ stage ph p = stage s.phase p) ∨
      (notification s = none ∧ ph = .resetting ∧
        (s.phase = .draining ∨ s.phase = .counting [] ∧ s.numTotalClients = 0)) := by
    intro hnone
    rcases stage_quiet hu hnone with hst | hreset
    · exact Or.inl ⟨by simp [hnone],hst⟩
    · exact Or.inr ⟨hnone,hreset⟩
  cases hph : s.phase with
  | sending q rest =>
    have hnote : notification s = some (q,notifyHwerror) := by simp only [notification,hph]
    obtain ⟨htold,hothers⟩ := stage_sending (o := o) (p := p) hph h
    rw [← hph,hnote]
    by_cases hq : p = q
    · exact Or.inl ⟨by rw [hq],htold hq⟩
    · exact Or.inr (Or.inr (Or.inl ⟨by simp [Ne.symm hq],hothers hq⟩))
  | announcing q rest =>
    have hnote : notification s = some (q,notifyHwrecoveryComplete) := by
      simp only [notification,hph]
    obtain ⟨htold,hothers⟩ := stage_announcing (o := o) (p := p) hph h
    rw [← hph,hnote]
    by_cases hq : p = q
    · exact Or.inr (Or.inl ⟨by rw [hq],htold hq⟩)
    · exact Or.inr (Or.inr (Or.inl ⟨by simp [Ne.symm hq],hothers hq⟩))
  | _ =>
    rw [hph] at hquiet
    exact Or.inr (Or.inr (hquiet (by simp only [notification,hph])))

end Monitor

section Serving

variable {s : Recovery procs tasks} {t t' : Fin tasks} {r : Request procs} {x : Outcomes}
  {a : Serving procs}

/-- A request in service after a task has begun one was so before or is that
one. -/
theorem serving_receive (h : (RecoveryMonitor.step s (.receive t r)).serving t' = some a) :
    s.serving t' = some a ∨ t' = t ∧ s.serving t = none ∧ a.request = r ∧ a.since = s.time ∧
      (beginRequest s.world r).2 = .left a.rest := by
  simp only [RecoveryMonitor.step,RecoveryMonitor.receiveStep] at h
  cases hserv : s.serving t with
  | some b =>
    simp only [hserv] at h
    exact Or.inl h
  | none =>
    simp only [hserv] at h
    rcases hb : beginRequest s.world r with ⟨w,b⟩
    rw [hb] at h
    cases b with
    | answered res => exact Or.inl h
    | left rest =>
      have h' : update s.serving t (some ⟨r,rest,s.time⟩) t' = some a := h
      by_cases ht : t' = t
      · subst ht
        rw [update_self] at h'
        obtain rfl := Option.some.inj h'
        exact Or.inr ⟨rfl,rfl,rfl,rfl,rfl⟩
      · rw [update_of_ne ht] at h'
        exact Or.inl h'

/-- A request in service after a task has finished one is another task's. -/
theorem serving_finish (h : (RecoveryMonitor.step s (.finish t x)).serving t' = some a) :
    s.serving t' = some a ∧ t' ≠ t := by
  simp only [RecoveryMonitor.step,RecoveryMonitor.finishStep] at h
  cases hserv : s.serving t with
  | none =>
    simp only [hserv] at h
    refine ⟨h,fun ht => ?_⟩
    have hsome : s.serving t = some a := by rw [← ht]; exact h
    rw [hserv] at hsome
    contradiction
  | some b =>
    simp only [hserv] at h
    have h' : update s.serving t none t' = some a := h
    by_cases ht : t' = t
    · rw [ht,update_self] at h'
      contradiction
    · rw [update_of_ne ht] at h'
      exact ⟨h',ht⟩

/-- Every confirmation in service, until the slot it found changes hands, has
found the client with its token there. -/
def Looked (s : Recovery procs tasks) : Prop :=
  ∀ t a, s.serving t = some a → a.since < s.time ∧
    (a.rest = .teardownCompletion a.rest.hClient → s.changedAt a.place < a.since →
      (s.at a.place).inUse = true ∧ (s.at a.place).token = a.request.token)

theorem looked_monitor (h : Looked s) (o : Observation) :
    Looked (RecoveryMonitor.step s (.monitor o)) := by
  intro t a hserv
  obtain ⟨hs,hc,ht⟩ := serving_monitor s o
  rw [hs] at hserv
  obtain ⟨hsince,hfound⟩ := h t a hserv
  rw [ht,hc]
  refine ⟨Nat.lt_succ_of_lt hsince,fun hrest hch => ?_⟩
  rcases at_monitor s o a.place with hat | hat <;> rw [hat] <;> exact hfound hrest hch

theorem looked_receive (hw : Ready s.world) (h : Looked s) (t : Fin tasks) (r : Request procs) :
    Looked (RecoveryMonitor.step s (.receive t r)) := by
  intro t' a hserv
  obtain ⟨hmove,hplaces⟩ := RecoveryMonitor.receive_cases s t r hw
  rw [hmove.time]
  rcases serving_receive hserv with hold | ⟨-,hfree,hreq,hsince,hleft⟩
  · obtain ⟨hsince,hfound⟩ := h t' a hold
    refine ⟨Nat.lt_succ_of_lt hsince,fun hrest hch => ?_⟩
    rcases (hplaces a.place).2 with ⟨hat,hsame⟩ | ⟨hno,-⟩
    · rw [hsame] at hch
      rw [hat]
      exact hfound hrest hch
    · -- a slot that was free has been taken after the look-up
      rcases hmove.changedAt a.place with hsame | hnow
      · rw [hsame] at hch
        rw [(hfound hrest hch).1] at hno
        contradiction
      · omega
  · refine ⟨by omega,fun hrest _ => ?_⟩
    have heff := beginRequest_effect s.world r
    have hstep : RecoveryMonitor.step s (.receive t r) =
        RecoveryMonitor.tick (RecoveryMonitor.receiveStep s t r) := rfl
    rw [hstep]
    simp only [RecoveryMonitor.receiveStep,hfree]
    generalize beginRequest s.world r = b at heff hleft ⊢
    cases heff with
    | answered res => contradiction
    | found rest hget hport =>
      obtain rfl : rest = a.rest := Begun.left.inj hleft
      have hclient := getClient_eq_some hget
      rw [← hreq] at hclient
      exact hclient
    | taken v rest hport hno =>
      obtain rfl : rest = a.rest := Begun.left.inj hleft
      rw [hrest] at hport
      contradiction

theorem looked_finish (hw : Ready s.world) (h : Looked s) (t : Fin tasks) (x : Outcomes) :
    Looked (RecoveryMonitor.step s (.finish t x)) := by
  intro t' a hserv
  obtain ⟨hmove,hplaces⟩ := RecoveryMonitor.finish_cases s t x hw
  obtain ⟨hsince,hfound⟩ := h t' a (serving_finish hserv).1
  rw [hmove.time]
  refine ⟨Nat.lt_succ_of_lt hsince,fun hrest hch => ?_⟩
  rcases hplaces a.place with ⟨hat,hsame,-⟩ | ⟨b,hb,hplace,hwrites,hchanged,-⟩
  · rw [hsame] at hch
    rw [hat]
    exact hfound hrest hch
  · rw [hchanged] at hch
    have hkeeps : RecoveryMonitor.changesHands s.world x b = false := by
      by_contra hno
      rw [if_pos (Bool.not_eq_false _ ▸ hno)] at hch
      omega
    rw [if_neg (by simp [hkeeps])] at hch
    obtain ⟨hu,htoken⟩ := hfound hrest hch
    cases hbrest : b.rest with
    | attach v i | attachExt v i =>
      rw [hbrest] at hwrites
      have hmtu : mtuOk s.world x b.request.remoteProcId = false := by
        simpa [RecoveryMonitor.changesHands,hbrest] using hkeeps
      obtain ⟨huse,-,htok,-⟩ := hwrites
      rw [if_neg (by simp [hmtu])] at htok
      exact ⟨huse.trans hu,htok.trans htoken⟩
    | detach i => simp [RecoveryMonitor.changesHands,hbrest] at hkeeps
    | teardownCompletion i =>
      rw [hbrest] at hwrites
      have hmark : (RecoveryMonitor.step s (.finish t x)).at a.place =
        { s.at a.place with isIdle := true } := hwrites
      rw [hmark]
      exact ⟨hu,htoken⟩

end Serving

/-- What every run of admitted events keeps. -/
structure Inv (s : System procs tasks) : Prop where
  /-- The monitor stands for attached clients. -/
  server : RecoveryMonitor.RecoveryInv s.server
  /-- Its walk visits no slot twice. -/
  walk : (walk s.server.phase).Nodup
  /-- Confirmations in service have found their clients. -/
  looked : Looked s.server
  /-- An attached client names its core. -/
  named : ∀ p, (s.server.at p).attached = true → (s.server.at p).coreId = p.1.val
  /-- Attached clients of a core have different tokens. -/
  unique : ∀ core i j, (s.server.at (core,i)).attached = true →
    (s.server.at (core,j)).attached = true →
    (s.server.at (core,i)).token = (s.server.at (core,j)).token → i = j
  /-- The object to be notified next is in use or has been freed since. -/
  addressed : ∀ q n, notification s.server = some (q,n) →
    (s.server.at q).inUse = true ∨ (s.server.at q).token = tokenNone
  /-- A core waits for each confirmation in service. -/
  serves : ∀ t a, s.server.serving t = some a → a.rest = .teardownCompletion a.rest.hClient →
    s.recovery a.request.remoteProcId = .served a.request.token
  /-- A core's confirmation is served once. -/
  once : ∀ t t' a a', s.server.serving t = some a → s.server.serving t' = some a' →
    a.rest = .teardownCompletion a.rest.hClient → a'.rest = .teardownCompletion a'.rest.hClient →
    a.request.remoteProcId = a'.request.remoteProcId → t = t'
  /-- Every attached client is where its stage says. -/
  follows : ∀ p, (s.server.at p).attached = true → Follows (stage s.server.phase p) (view s p)

theorem attached_iff (c : ClientObj) :
    c.attached = true ↔ c.inUse = true ∧ c.token ≠ tokenNone := by
  simp [ClientObj.attached]

/-- A place that is not free and has the token of an attached client is the
client's, if it names the client's core. -/
theorem Inv.place_eq {s : System procs tasks} (h : Inv s) {p q : Place procs}
    (hp : (s.server.at p).attached = true) (hq : (s.server.at q).inUse = true)
    (hcore : q.1 = p.1) (htoken : (s.server.at q).token = (s.server.at p).token) : q = p := by
  obtain ⟨core,i⟩ := p
  obtain ⟨core',j⟩ := q
  obtain rfl : core' = core := hcore
  have hne := ((attached_iff _).mp hp).2
  rw [← htoken] at hne
  have hq' : (s.server.at (core',j)).attached = true := (attached_iff _).mpr ⟨hq,hne⟩
  rw [h.unique core' i j hp hq' htoken.symm]

/-- The client that a confirmation in service has found waits for it. -/
theorem Inv.waits_of_serving {s : System procs tasks} (h : Inv s) {t : Fin tasks}
    {a : Serving procs} (hserv : s.server.serving t = some a)
    (hrest : a.rest = .teardownCompletion a.rest.hClient)
    (hch : s.server.changedAt a.place < a.since) : (view s a.place).waits = true := by
  have hfound := (h.looked t a hserv).2 hrest hch
  have hserves := h.serves t a hserv hrest
  simp only [view,Serving.place] at hfound ⊢
  rw [hserves,hfound.2]
  simp [RecoveryTask.waitsFor]

/-- What is admitted does not mislead the monitor. -/
theorem Inv.timely {s : System procs tasks} (h : Inv s) {t : Fin tasks} {x : Outcomes}
    (hG : Admitted s (.finish t x)) : RecoveryMonitor.Timely s.server (.finish t x) := by
  refine ⟨fun a hserv hport hmtu => ?_,fun a hserv hrest hon _ => ?_⟩
  · have hadm := hG a hserv
    have huncounted : Uncounted s.server.phase a.place := by
      cases hrest : a.rest with
      | attach v i | attachExt v i =>
        rw [hrest] at hadm
        exact (hadm hmtu).1
      | detach i | teardownCompletion i =>
        rw [hrest] at hport
        contradiction
    cases hph : s.server.phase with
    | counting rest =>
      rw [hph] at huncounted
      exact fun hout => hout huncounted
    | waiting => exact id
    | _ =>
      rw [hph] at huncounted
      exact huncounted.elim
  · have hadm := hG a hserv
    rw [hrest] at hadm
    have hch : s.server.changedAt a.place < a.since := hadm
    refine ⟨hch,fun htold => ?_⟩
    have hfollows := h.follows a.place hon
    have hwaits := h.waits_of_serving hserv hrest hch
    cases hph : s.server.phase with
    | sending q rest =>
      rw [hph] at htold hfollows
      have hq : a.place = q := htold
      have hbefore : stage (.sending q rest) a.place = .before := by simp [stage,hq]
      rw [hbefore] at hfollows
      exact absurd (hwaits.symm.trans hfollows.2.1) (by decide)
    | _ =>
      rw [hph] at htold
      exact htold.elim

/-- A cleared mark or none: a step of the monitor keeps a client where its
stage says if it sends nothing to it. -/
theorem follows_monitor {s : System procs tasks} {o : Observation} {p : Place procs}
    {st : Stage} {q : List U32} (h : Follows st { view s p with pending := q }) :
    Follows st { view s p with
      pending := q
      idle := ((RecoveryMonitor.step s.server (.monitor o)).at p).isIdle } := by
  rcases at_monitor s.server o p with hat | hat
  · rw [hat]
    exact h
  · rw [hat]
    exact follows_clear h

/-- A step of the monitor changes nothing but the mark of a client. -/
theorem fields_monitor (s : Recovery procs tasks) (o : Observation) (p : Place procs) :
    let c := (RecoveryMonitor.step s (.monitor o)).at p
    c.attached = (s.at p).attached ∧ c.token = (s.at p).token ∧ c.coreId = (s.at p).coreId := by
  refine ⟨RecoveryMonitor.attached_monitor s o p,?_,?_⟩ <;>
    rcases at_monitor s o p with hat | hat <;> rw [hat]

/-- The mark of a client is clear while the error notification is to be sent. -/
theorem Inv.idle_of_error {s : System procs tasks} (h : Inv s) {p : Place procs}
    (hp : (s.server.at p).attached = true)
    (hn : notification s.server = some (p,notifyHwerror)) : (s.server.at p).isIdle = false := by
  have hw := h.server.2
  cases hph : s.server.phase with
  | sending q rest =>
    have hq : q = p := by
      simp only [notification,hph] at hn
      exact (Prod.mk.inj (Option.some.inj hn)).1
    subst hq
    have hwalk := h.walk
    rw [hph] at hwalk
    simp only [RecoveryMonitor.Window,hph] at hw
    exact hw.clear q hp (List.nodup_cons.mp hwalk).1 rfl
  | announcing q rest =>
    simp only [notification,hph] at hn
    exact absurd (Prod.mk.inj (Option.some.inj hn)).2 (by decide)
  | _ => simp [notification,hph] at hn

/-- A notification sent to a client is under way to it. -/
theorem Inv.pending_sent {s : System procs tasks} (h : Inv s) {p : Place procs} {n : U32}
    (hp : (s.server.at p).attached = true) (hn : notification s.server = some (p,n)) :
    pending { s with inbox := post s (notification s.server) } p.1 (s.server.at p).token =
      (view s p).pending ++ [n] := by
  rw [hn,pending_post,if_pos ⟨(h.named p hp).symm,rfl⟩]
  rfl

/-- A notification sent to another client is not under way to this one. -/
theorem Inv.pending_other {s : System procs tasks} (h : Inv s) {p : Place procs}
    (hp : (s.server.at p).attached = true)
    (hn : (notification s.server).map Prod.fst ≠ some p) :
    pending { s with inbox := post s (notification s.server) } p.1 (s.server.at p).token =
      (view s p).pending := by
  cases hnote : notification s.server with
  | none => rfl
  | some m =>
    obtain ⟨q,n⟩ := m
    have hother : ¬(p.1.val = (s.server.at q).coreId ∧
        (s.server.at q).token = (s.server.at p).token) := by
      rintro ⟨hcore,ht⟩
      have hne := ((attached_iff _).mp hp).2
      have hq : (s.server.at q).inUse = true :=
        (h.addressed q n hnote).resolve_right fun hnone => hne (ht.symm.trans hnone)
      have hqon : (s.server.at q).attached = true :=
        (attached_iff _).mpr ⟨hq,by rw [ht]; exact hne⟩
      have hplace : q.1 = p.1 := Fin.ext ((h.named q hqon).symm.trans hcore.symm)
      rw [hnote,h.place_eq hp hq hplace ht] at hn
      exact hn rfl
    rw [pending_post,if_neg hother]
    rfl

/-- A client is idle when the reset starts, and held from then on. -/
theorem Inv.starts_reset {s : System procs tasks} (h : Inv s) {o : Observation} {p : Place procs}
    (hp : (s.server.at p).attached = true)
    (hreset : (RecoveryMonitor.step s.server (.monitor o)).phase = .resetting)
    (hphase : s.server.phase = .draining ∨
      s.server.phase = .counting [] ∧ s.server.numTotalClients = 0) :
    Follows (stage .resetting p) (view s p) := by
  have hfollows := h.follows p hp
  rcases hphase with hdrain | ⟨hcount,hzero⟩
  · have hsafe := RecoveryMonitor.resetsSafely_of_inv (e := .monitor o) h.server
      (by rw [hdrain]; simp) hreset p ((fields_monitor s.server o p).1.trans hp)
    have hidle : (s.server.at p).isIdle = true := by
      have hi := hsafe.1
      rcases at_monitor s.server o p with hat | hat
      · rwa [hat] at hi
      · simp [hat] at hi
    rw [hdrain] at hfollows
    exact follows_reset hfollows hidle
  · -- nobody is attached when the first count finds no client
    have hw := h.server.2
    simp only [RecoveryMonitor.Window,hcount] at hw
    have hempty : s.server.counted = ∅ := Finset.card_eq_zero.mp (hw.total.symm.trans hzero)
    rcases hw.covers p hp with hmem | hmem
    · simp at hmem
    · simp [hempty] at hmem

/-- The monitor keeps a client where its stage says. -/
theorem Inv.follows_step {s : System procs tasks} (h : Inv s) (o : Observation) {p : Place procs}
    (hp : (s.server.at p).attached = true) :
    Follows (stage (RecoveryMonitor.step s.server (.monitor o)).phase p)
      (view (step s (.monitor o)) p) := by
  have hfollows := h.follows p hp
  have hview : view (step s (.monitor o)) p =
      { view s p with
        pending := pending { s with inbox := post s (notification s.server) } p.1
          (s.server.at p).token
        idle := ((RecoveryMonitor.step s.server (.monitor o)).at p).isIdle } := by
    simp only [view,step,(fields_monitor s.server o p).2.1]
    rfl
  rw [hview]
  rcases stage_monitor (o := o) h.walk ((attached_iff _).mp hp).1 with
    ⟨hn,hst,hst'⟩ | ⟨hn,hst,hst'⟩ | ⟨hn,hst⟩ | ⟨hn,hreset,hphase⟩
  · rw [hst] at hfollows
    rw [hst',h.pending_sent hp hn]
    exact follows_monitor (follows_error hfollows (h.idle_of_error hp hn))
  · rw [hst] at hfollows
    rw [hst',h.pending_sent hp hn]
    exact follows_monitor (follows_complete hfollows)
  · rw [hst,h.pending_other hp hn]
    exact follows_monitor hfollows
  · rw [hreset,h.pending_other hp (by simp [hn])]
    exact follows_monitor (h.starts_reset hp hreset hphase)

/-- The monitor keeps every client where its stage says. -/
theorem inv_monitor {s : System procs tasks} (h : Inv s) (o : Observation) :
    Inv (step s (.monitor o)) := by
  have htimely : RecoveryMonitor.Timely s.server (.monitor o) := ⟨trivial,trivial⟩
  have hserver := RecoveryMonitor.recoveryInv_step h.server htimely
  obtain ⟨hserving,-,-⟩ := serving_monitor s.server o
  have hattached := fun p => (fields_monitor s.server o p).1
  have htoken := fun p => (fields_monitor s.server o p).2.1
  refine ⟨hserver,walk_monitor h.walk,looked_monitor h.looked o,?_,?_,?_,?_,?_,?_⟩
  · intro p hp
    exact (fields_monitor s.server o p).2.2.trans (h.named p ((hattached p).symm.trans hp))
  · intro core i j hi hj ht
    exact h.unique core i j ((hattached _).symm.trans hi) ((hattached _).symm.trans hj)
      (((htoken _).symm.trans ht).trans (htoken _))
  · intro q n hn
    have hu := inUse_of_notification hn
    left
    change ((RecoveryMonitor.step s.server (.monitor o)).at q).inUse = true
    rcases at_monitor s.server o q with hat | hat <;> rw [hat] <;> exact hu
  · intro t a ha
    exact h.serves t a (by rw [← hserving]; exact ha)
  · intro t t' a a' ha ha'
    exact h.once t t' a a' (by rw [← hserving]; exact ha) (by rw [← hserving]; exact ha')
  · intro p hp
    exact h.follows_step o ((hattached p).symm.trans hp)

/-- What the recovery task of a core does to a client: the oldest notification
is taken if it is the client's. -/
theorem view_hwRecoveryTask {s : System procs tasks} {core : Fin procs} {t n : U32}
    {rest : List (U32 × U32)} (hw : s.recovery core = .ready)
    (hi : s.inbox core = (t,n) :: rest) (p : Place procs) :
    let q := pending { s with inbox := update s.inbox core rest } p.1 (s.server.at p).token
    (p.1 = core ∧ (s.server.at p).token = t ∧ (view s p).pending = n :: q ∧
        view (hwRecoveryTask s core) p = (view s p).take n q) ∨
      view (hwRecoveryTask s core) p = view s p := by
  intro q
  have hpending := pending_cons hi p.1 (s.server.at p).token
  by_cases hp : p.1 = core ∧ (s.server.at p).token = t
  · rw [if_pos hp] at hpending
    refine Or.inl ⟨hp.1,hp.2,hpending,?_⟩
    obtain ⟨core',i⟩ := p
    obtain ⟨rfl,rfl⟩ := hp
    have htake : (view s (core',i)).take n q =
        match s.dma (core',(s.server.at (core',i)).token) with
        | none => { view s (core',i) with pending := q }
        | some _ =>
          if n = notifyHwerror then
            { view s (core',i) with pending := q, waits := true, dma := some false }
          else if n = notifyHwrecoveryComplete then
            { view s (core',i) with pending := q, dma := some true }
          else { view s (core',i) with pending := q } := rfl
    rw [htake]
    simp only [hwRecoveryTask,hw,hi]
    split
    · rfl
    · split
      · simp [view,q,pending,RecoveryTask.waitsFor]
      · split
        · simp [view,q,pending]
        · rfl
  · rw [if_neg hp] at hpending
    refine Or.inr ?_
    have hq : ∀ w d, pending ⟨s.server,update s.inbox core rest,w,d⟩ p.1 (s.server.at p).token =
        pending s p.1 (s.server.at p).token := fun _ _ => hpending.symm
    have hdma : ∀ b, update s.dma (core,t) b (p.1,(s.server.at p).token) =
        s.dma (p.1,(s.server.at p).token) :=
      fun b => update_of_ne (fun h => hp (Prod.mk.inj h)) b s.dma
    have hwaits : (update s.recovery core (.sent t) p.1).waitsFor (s.server.at p).token =
        (s.recovery p.1).waitsFor (s.server.at p).token := by
      by_cases hc : p.1 = core
      · have ht : t ≠ (s.server.at p).token := fun h => hp ⟨hc,h.symm⟩
        simp [hc,hw,ht,RecoveryTask.waitsFor]
      · rw [update_of_ne hc]
    simp only [hwRecoveryTask,hw,hi]
    split
    · simp only [view,hq]
    · split
      · simp only [view,hq,hdma,hwaits]
      · split
        · simp only [view,hq,hdma]
        · simp only [view,hq]

/-- The recovery task of a core changes nothing at the server, and no other
task. -/
theorem server_hwRecoveryTask (s : System procs tasks) (core : Fin procs) :
    (hwRecoveryTask s core).server = s.server ∧
      ∀ c, s.recovery c ≠ .ready → (hwRecoveryTask s core).recovery c = s.recovery c := by
  rw [hwRecoveryTask]
  split
  · next hw hi =>
    dsimp only
    split
    · exact ⟨rfl,fun _ _ => rfl⟩
    · split
      · refine ⟨rfl,fun c hc => update_of_ne ?_ _ _⟩
        rintro rfl
        exact hc hw
      · split <;> exact ⟨rfl,fun _ _ => rfl⟩
  · exact ⟨rfl,fun _ _ => rfl⟩

/-- The recovery tasks keep every client where its stage says. -/
theorem inv_recoveryTask {s : System procs tasks} (h : Inv s) (core : Fin procs) :
    Inv (hwRecoveryTask s core) := by
  obtain ⟨hserver,hrecovery⟩ := server_hwRecoveryTask s core
  refine ⟨by rw [hserver]; exact h.server,by rw [hserver]; exact h.walk,
    by rw [hserver]; exact h.looked,by rw [hserver]; exact h.named,
    by rw [hserver]; exact h.unique,by rw [hserver]; exact h.addressed,?_,
    by rw [hserver]; exact h.once,?_⟩
  · rw [hserver]
    intro t a hserv hrest
    have hserves := h.serves t a hserv hrest
    rw [hrecovery _ (by rw [hserves]; simp)]
    exact hserves
  rw [hserver]
  intro p hp
  have hfollows := h.follows p hp
  cases hw : s.recovery core with
  | sent t | served t =>
    have hsame : hwRecoveryTask s core = s := by simp only [hwRecoveryTask,hw]
    rw [hsame]
    exact hfollows
  | ready =>
    cases hi : s.inbox core with
    | nil =>
      have hsame : hwRecoveryTask s core = s := by simp only [hwRecoveryTask,hw,hi]
      rw [hsame]
      exact hfollows
    | cons m rest =>
      rcases view_hwRecoveryTask hw hi p with ⟨-,-,hpending,hview⟩ | hview
      · rw [hview]
        exact follows_take hfollows hpending
      · rw [hview]
        exact hfollows

section Requests

variable {s : System procs tasks}

/-- The server after a task has begun a request. -/
theorem server_receive (h : Inv s) (t : Fin tasks) (r : Request procs) :
    RecoveryMonitor.RecoveryInv (RecoveryMonitor.step s.server (.receive t r)) ∧
      Looked (RecoveryMonitor.step s.server (.receive t r)) ∧
      (RecoveryMonitor.step s.server (.receive t r)).phase = s.server.phase ∧
      ∀ p, ((RecoveryMonitor.step s.server (.receive t r)).at p).attached = true →
        (RecoveryMonitor.step s.server (.receive t r)).at p = s.server.at p := by
  have hready := h.server.1.ready
  obtain ⟨-,hplaces⟩ := RecoveryMonitor.receive_cases s.server t r hready
  refine ⟨RecoveryMonitor.recoveryInv_step h.server ⟨trivial,trivial⟩,
    looked_receive hready h.looked t r,RecoveryMonitor.phase_receive s.server t r,fun p hp => ?_⟩
  rcases (hplaces p).2 with ⟨hat,-⟩ | ⟨-,hno⟩
  · exact hat
  · rw [RecoveryMonitor.attached_tokenNone hno] at hp
    contradiction

/-- An object to be notified next stays in use or freed when a request is
begun. -/
theorem addressed_receive (h : Inv s) (t : Fin tasks) (r : Request procs) (q : Place procs)
    (n : U32) (hn : notification s.server = some (q,n)) :
    ((RecoveryMonitor.step s.server (.receive t r)).at q).inUse = true ∨
      ((RecoveryMonitor.step s.server (.receive t r)).at q).token = tokenNone := by
  obtain ⟨-,hplaces⟩ := RecoveryMonitor.receive_cases s.server t r h.server.1.ready
  rcases (hplaces q).2 with ⟨hat,-⟩ | ⟨-,htoken⟩
  · rw [hat]
    exact h.addressed q n hn
  · exact Or.inr htoken

/-- Beginning a request keeps every client where its stage says, when the
recovery tasks go on as their clients expect. -/
theorem Inv.receive (h : Inv s) (t : Fin tasks) (r : Request procs)
    (recovery : Fin procs → RecoveryTask)
    (hserves : ∀ t' a, (RecoveryMonitor.step s.server (.receive t r)).serving t' = some a →
      a.rest = .teardownCompletion a.rest.hClient →
      recovery a.request.remoteProcId = .served a.request.token)
    (honce : ∀ t' t'' a a', (RecoveryMonitor.step s.server (.receive t r)).serving t' = some a →
      (RecoveryMonitor.step s.server (.receive t r)).serving t'' = some a' →
      a.rest = .teardownCompletion a.rest.hClient →
      a'.rest = .teardownCompletion a'.rest.hClient →
      a.request.remoteProcId = a'.request.remoteProcId → t' = t'')
    (hfollows : ∀ p st, (s.server.at p).attached = true → Follows st (view s p) →
      Follows st { view s p with
        waits := (recovery p.1).waitsFor (s.server.at p).token }) :
    Inv { s with
      server := RecoveryMonitor.step s.server (.receive t r)
      recovery := recovery } := by
  obtain ⟨hserver,hlooked,hphase,hat⟩ := server_receive h t r
  have hold : ∀ p, ((RecoveryMonitor.step s.server (.receive t r)).at p).attached = true →
      (s.server.at p).attached = true := by
    intro p hp
    rw [← hat p hp]
    exact hp
  have hnote : notification (RecoveryMonitor.step s.server (.receive t r)) =
      notification s.server := by rw [notification,notification,hphase]
  refine ⟨hserver,by rw [hphase]; exact h.walk,hlooked,fun p hp => ?_,?_,?_,hserves,honce,?_⟩
  · dsimp only at hp ⊢
    rw [hat p hp]
    exact h.named p (hold p hp)
  · intro core i j hi hj ht
    dsimp only at hi hj ht
    rw [hat _ hi,hat _ hj] at ht
    exact h.unique core i j (hold _ hi) (hold _ hj) ht
  · intro q n hn
    exact addressed_receive h t r q n (hnote.symm.trans hn)
  · intro p hp
    have hp' := hold p hp
    have hview := hfollows p _ hp' (h.follows p hp')
    dsimp only at hp ⊢
    rw [hphase]
    simp only [view,hat p hp] at hview ⊢
    exact hview

/-- Beginning another request keeps every client where its stage says. -/
theorem inv_request (h : Inv s) (t : Fin tasks) (r : Request procs) :
    Inv (beginOther s t r) := by
  rw [beginOther]
  split
  · exact h
  next hcmd =>
  -- what is begun is no confirmation
  have hold : ∀ t' a, (RecoveryMonitor.step s.server (.receive t r)).serving t' = some a →
      a.rest = .teardownCompletion a.rest.hClient → s.server.serving t' = some a := by
    intro t' a hserv hrest
    rcases serving_receive hserv with hold | ⟨-,-,-,-,hleft⟩
    · exact hold
    · exact absurd (cmd_of_teardownCompletion hleft hrest) hcmd
  exact h.receive t r s.recovery
    (fun t' a hserv hrest => h.serves t' a (hold t' a hserv hrest) hrest)
    (fun t' t'' a a' ha ha' hrest hrest' =>
      h.once t' t'' a a' (hold t' a ha hrest) (hold t'' a' ha' hrest') hrest hrest')
    fun _ _ _ hf => hf

/-- Beginning a confirmation keeps every client where its stage says. -/
theorem inv_beginConfirm (h : Inv s) (t : Fin tasks) (core : Fin procs) (remoteEndPt : U32)
    (clientId : U8) (reqId : U32) : Inv (beginConfirm s t core remoteEndPt clientId reqId) := by
  rw [beginConfirm]
  split
  next token hsent hfree =>
    let r : Request procs := ⟨core,remoteEndPt,clientId,token,reqId,.teardownCompletion⟩
    have hothers : ∀ t' a, s.server.serving t' = some a →
        a.rest = .teardownCompletion a.rest.hClient → a.request.remoteProcId ≠ core := by
      intro t' a hserv hrest hcore
      have hserves := h.serves t' a hserv hrest
      rw [hcore,hsent] at hserves
      contradiction
    have hfound : ∀ a : Rest, (beginRequest s.server.world r).2 = .left a →
        (getClient s.server.world core token).isSome = true := by
      intro a hleft
      have hbegin : beginRequest s.server.world r =
          findClient s.server.world r efail .teardownCompletion := rfl
      rw [hbegin,findClient] at hleft
      cases hg : getClient s.server.world core token with
      | some i => rfl
      | none =>
        have hg' : getClient s.server.world r.remoteProcId r.token = none := hg
        rw [hg'] at hleft
        contradiction
    refine h.receive t r _ (fun t' a hserv hrest => ?_)
      (fun t' t'' a a' ha ha' hrest hrest' hcore => ?_) fun p st _ hf => ?_
    · rcases serving_receive hserv with hold | ⟨-,-,hreq,-,hleft⟩
      · rw [update_of_ne (hothers t' a hold hrest)]
        exact h.serves t' a hold hrest
      · rw [hreq,if_pos (hfound _ hleft)]
        exact update_self _ _ _
    · rcases serving_receive ha with hold | ⟨ht,-,hreq,-,-⟩ <;>
        rcases serving_receive ha' with hold' | ⟨ht',-,hreq',-,-⟩
      · exact h.once t' t'' a a' hold hold' hrest hrest' hcore
      · rw [hreq'] at hcore
        exact absurd hcore (hothers t' a hold hrest)
      · rw [hreq] at hcore
        exact absurd hcore.symm (hothers t'' a' hold' hrest')
      · rw [ht,ht']
    · by_cases hc : p.1 = core
      · rw [hc,update_self]
        split
        · have hsame : (view s p).waits = (RecoveryTask.served token).waitsFor
              (s.server.at p).token := by
            simp only [view,hc,hsent]
            rfl
          rw [← hsame]
          exact hf
        · exact follows_answered hf
      · rw [update_of_ne hc]
        exact hf
  · exact h

/-- A client attached after the rest of a request was so before, or it has just
been given its token. -/
theorem attached_finish (h : Inv s) {t : Fin tasks} {x : Outcomes} {a : Serving procs}
    (hserv : s.server.serving t = some a) {p : Place procs}
    (hp : ((RecoveryMonitor.step s.server (.finish t x)).at p).attached = true) :
    let c := (RecoveryMonitor.step s.server (.finish t x)).at p
    ((s.server.at p).attached = true ∧ c.token = (s.server.at p).token ∧
        c.coreId = (s.server.at p).coreId ∧
        (c.isIdle = (s.server.at p).isIdle ∨
          p = a.place ∧ a.rest = .teardownCompletion a.rest.hClient)) ∨
      ∃ v, a.rest.attachPort = some v ∧ p = a.place ∧
        mtuOk s.server.world x a.request.remoteProcId = true ∧
        c.token = virtPort2Token v ∧ c.coreId = p.1.val := by
  intro c
  have hon := (attached_iff _).mp hp
  obtain ⟨-,hplaces⟩ := RecoveryMonitor.finish_cases s.server t x h.server.1.ready
  rcases hplaces p with ⟨hat,-,-⟩ | ⟨b,hb,hplace,hwrites,-,-⟩
  · have hsame : c = s.server.at p := hat
    rw [hsame]
    rw [hat] at hp
    exact Or.inl ⟨hp,rfl,rfl,Or.inl rfl⟩
  · obtain rfl : a = b := Option.some.inj (hserv.symm.trans hb)
    cases hrest : a.rest with
    | attach v i | attachExt v i =>
      rw [hrest] at hwrites
      obtain ⟨hu,hidle,htoken,hcoreId⟩ := hwrites
      cases hmtu : mtuOk s.server.world x a.request.remoteProcId with
      | true =>
        rw [hmtu] at htoken hcoreId
        have hcore : a.request.remoteProcId.val = p.1.val :=
          congrArg (fun q : Place procs => q.1.val) hplace.symm
        exact Or.inr ⟨v,rfl,hplace,rfl,htoken,hcoreId.trans hcore⟩
      | false =>
        rw [hmtu] at htoken hcoreId
        refine Or.inl ⟨?_,htoken,hcoreId,Or.inl hidle⟩
        exact (attached_iff _).mpr ⟨hu.symm.trans hon.1,fun hno => hon.2 (htoken.trans hno)⟩
    | detach i =>
      rw [hrest] at hwrites
      have hfree : (RecoveryMonitor.step s.server (.finish t x)).at p = ClientObj.free := hwrites
      exact absurd (by rw [hfree]; rfl) hon.2
    | teardownCompletion i =>
      rw [hrest] at hwrites
      have hmark : c = { s.server.at p with isIdle := true } := hwrites
      have hold : (s.server.at p).attached = true := by
        rw [← hp]
        exact (congrArg ClientObj.attached hmark).symm
      rw [hmark]
      exact Or.inl ⟨hold,rfl,rfl,Or.inr ⟨hplace,rfl⟩⟩

/-- What is asked of an attach that stores its token. -/
theorem Admitted.attach {t : Fin tasks} {x : Outcomes} {a : Serving procs} {v : U32}
    (hG : Admitted s (.finish t x)) (hserv : s.server.serving t = some a)
    (hport : a.rest.attachPort = some v) : AttachAdmitted s x a v := by
  have hadm := hG a hserv
  cases hrest : a.rest with
  | attach v' i | attachExt v' i =>
    rw [hrest] at hadm hport
    obtain rfl := Option.some.inj hport
    exact hadm
  | detach i | teardownCompletion i =>
    rw [hrest] at hport
    contradiction

/-- The rest of an admitted request opens the DMA of no client that was
attached before. -/
theorem dma_finish (h : Inv s) {t : Fin tasks} {x : Outcomes} {a : Serving procs}
    (hG : Admitted s (.finish t x)) (hserv : s.server.serving t = some a) {p : Place procs}
    (hp : (s.server.at p).attached = true) :
    (finishRequest s t x).dma (p.1,(s.server.at p).token) =
      s.dma (p.1,(s.server.at p).token) := by
  simp only [finishRequest,hserv]
  split
  · next hok =>
    obtain ⟨v,hport⟩ := Option.isSome_iff_exists.mp hok.1
    obtain ⟨hmtu,htoken⟩ := finishRequest_attach_ok h.server.1.ready hport hok.2
    refine update_of_ne (fun hkey => ?_) _ _
    obtain ⟨hcore,ht⟩ := Prod.mk.inj hkey
    have hother := ((hG.attach hserv hport) hmtu).2.1 p.2
    rw [← hcore] at hother
    exact hother hp (ht.trans htoken)
  · rfl

/-- An object to be notified next stays in use or freed when the rest of an
admitted request is done. -/
theorem addressed_finish (h : Inv s) {t : Fin tasks} {x : Outcomes} {a : Serving procs}
    (hG : Admitted s (.finish t x)) (hserv : s.server.serving t = some a) {q : Place procs}
    {n : U32} (hn : notification s.server = some (q,n)) :
    ((RecoveryMonitor.step s.server (.finish t x)).at q).inUse = true ∨
      ((RecoveryMonitor.step s.server (.finish t x)).at q).token = tokenNone := by
  obtain ⟨-,hplaces⟩ := RecoveryMonitor.finish_cases s.server t x h.server.1.ready
  rcases hplaces q with ⟨hat,-,-⟩ | ⟨b,hb,hplace,hwrites,-,-⟩
  · rw [hat]
    exact h.addressed q n hn
  · obtain rfl : a = b := Option.some.inj (hserv.symm.trans hb)
    have hadm := fun v => hG.attach (v := v) hserv
    cases hrest : a.rest with
    | attach v i | attachExt v i =>
      rw [hrest] at hwrites hadm
      obtain ⟨hu,-,htoken,-⟩ := hwrites
      have hmtu : ¬ mtuOk s.server.world x a.request.remoteProcId = true := by
        intro hmtu
        have hphase := (hadm v rfl hmtu).1
        cases hph : s.server.phase <;> simp [Uncounted,notification,hph] at hphase hn
      rw [if_neg hmtu] at htoken
      rw [hu,htoken]
      exact h.addressed q n hn
    | detach i =>
      rw [hrest] at hwrites
      have hfree : (RecoveryMonitor.step s.server (.finish t x)).at q = ClientObj.free := hwrites
      exact Or.inr (by rw [hfree]; rfl)
    | teardownCompletion i =>
      rw [hrest] at hwrites
      have hmark : (RecoveryMonitor.step s.server (.finish t x)).at q =
        { s.server.at q with isIdle := true } := hwrites
      rw [hmark]
      exact h.addressed q n hn

/-- A client that was attached before the rest of an admitted request stays
where its stage says. -/
theorem follows_finish (h : Inv s) {t : Fin tasks} {x : Outcomes} {a : Serving procs}
    (hG : Admitted s (.finish t x)) (hserv : s.server.serving t = some a) {p : Place procs}
    (hp : (s.server.at p).attached = true) (idle : Bool)
    (hidle : idle = (s.server.at p).isIdle ∨
      p = a.place ∧ a.rest = .teardownCompletion a.rest.hClient) :
    Follows (stage s.server.phase p) { view s p with
      waits := ((finishRequest s t x).recovery p.1).waitsFor (s.server.at p).token
      idle := idle } := by
  have hfollows := h.follows p hp
  simp only [finishRequest,hserv]
  by_cases hrest : a.rest = .teardownCompletion a.rest.hClient
  · rw [if_pos hrest]
    by_cases hplace : p = a.place
    · have hadm := hG a hserv
      rw [hrest] at hadm
      have hwaits := h.waits_of_serving hserv hrest hadm
      rw [← hplace] at hwaits
      have hcore : p.1 = a.request.remoteProcId := congrArg Prod.fst hplace
      rw [hcore,update_self]
      exact follows_confirm hfollows hwaits idle
    · have hsame : idle = (view s p).idle := hidle.resolve_right fun hc => hplace hc.1
      rw [hsame]
      by_cases hcore : p.1 = a.request.remoteProcId
      · rw [hcore,update_self]
        exact follows_answered hfollows
      · rw [update_of_ne hcore]
        exact hfollows
  · have hsame : idle = (view s p).idle := hidle.resolve_right fun hc => hrest hc.2
    rw [if_neg hrest,hsame]
    exact hfollows

/-- The rest of a request leaves the notifications under way as they are. -/
theorem parts_finish {t : Fin tasks} {x : Outcomes} {a : Serving procs}
    (hserv : s.server.serving t = some a) :
    (finishRequest s t x).server = RecoveryMonitor.step s.server (.finish t x) ∧
      (finishRequest s t x).inbox = s.inbox := by
  constructor <;> simp only [finishRequest,hserv]

/-- The attached clients of a core still have different tokens. -/
theorem unique_finish (h : Inv s) {t : Fin tasks} {x : Outcomes} {a : Serving procs}
    (hG : Admitted s (.finish t x)) (hserv : s.server.serving t = some a) {core : Fin procs}
    {i j : Slot}
    (hi : ((RecoveryMonitor.step s.server (.finish t x)).at (core,i)).attached = true)
    (hj : ((RecoveryMonitor.step s.server (.finish t x)).at (core,j)).attached = true)
    (ht : ((RecoveryMonitor.step s.server (.finish t x)).at (core,i)).token =
      ((RecoveryMonitor.step s.server (.finish t x)).at (core,j)).token) : i = j := by
  rcases attached_finish h hserv hi with ⟨hi',hti,-⟩ | ⟨v,hport,hpi,hmtu,hti,-⟩ <;>
    rcases attached_finish h hserv hj with ⟨hj',htj,-⟩ | ⟨v',hport',hpj,hmtu',htj,-⟩
  · exact h.unique core i j hi' hj' (hti.symm.trans (ht.trans htj))
  · have hcore : core = a.request.remoteProcId := congrArg Prod.fst hpj
    subst hcore
    exact absurd (hti.symm.trans (ht.trans htj)) (((hG.attach hserv hport') hmtu').2.1 i hi')
  · have hcore : core = a.request.remoteProcId := congrArg Prod.fst hpi
    subst hcore
    exact absurd (htj.symm.trans (ht.symm.trans hti)) (((hG.attach hserv hport) hmtu).2.1 j hj')
  · exact congrArg Prod.snd (hpi.trans hpj.symm)

/-- A core still waits for each other confirmation in service. -/
theorem serves_finish (h : Inv s) {t t' : Fin tasks} {x : Outcomes} {a a' : Serving procs}
    (hserv : s.server.serving t = some a)
    (ha' : (RecoveryMonitor.step s.server (.finish t x)).serving t' = some a')
    (hrest' : a'.rest = .teardownCompletion a'.rest.hClient) :
    (finishRequest s t x).recovery a'.request.remoteProcId = .served a'.request.token := by
  obtain ⟨hold,ht⟩ := serving_finish ha'
  simp only [finishRequest,hserv]
  split
  · next hrest =>
    rw [update_of_ne fun hcore => ht (h.once t' t a' a hold hserv hrest' hrest hcore)]
    exact h.serves t' a' hold hrest'
  · exact h.serves t' a' hold hrest'

/-- An admitted attach brings a client that the round has not reached. -/
theorem follows_attach (h : Inv s) {t : Fin tasks} {x : Outcomes} {a : Serving procs} {v : U32}
    {p : Place procs} (hG : Admitted s (.finish t x)) (hserv : s.server.serving t = some a)
    (hport : a.rest.attachPort = some v) (hplace : p = a.place)
    (hmtu : mtuOk s.server.world x a.request.remoteProcId = true)
    (htoken : ((RecoveryMonitor.step s.server (.finish t x)).at p).token = virtPort2Token v) :
    Follows (stage s.server.phase p) (view (finishRequest s t x) p) := by
  obtain ⟨huncounted,-,hpending,hwaiting,hdma⟩ := (hG.attach hserv hport) hmtu
  obtain ⟨hserver,hinbox⟩ := parts_finish (x := x) hserv
  have hcore : p.1 = a.request.remoteProcId := congrArg Prod.fst hplace
  have hbefore : stage s.server.phase p = .before := by
    rw [hplace]
    cases hph : s.server.phase <;> simp [Uncounted,stage,hph] at huncounted ⊢
  have hnot : a.rest ≠ .teardownCompletion a.rest.hClient := by
    intro hrest
    rw [hrest] at hport
    contradiction
  have hrecovery : (finishRequest s t x).recovery = s.recovery := by
    simp only [finishRequest,hserv,if_neg hnot]
  have hopen : (finishRequest s t x).dma (p.1,virtPort2Token v) ≠ some false := by
    simp only [finishRequest,hserv]
    split
    · next hok =>
      rw [(finishRequest_attach_ok h.server.1.ready hport hok.2).2,hcore,update_self]
      simp
    · next hfail =>
      rw [hcore]
      exact hdma.resolve_left fun hok => hfail ⟨by simp [hport],hok⟩
  rw [hbefore]
  simp only [view,hserver,htoken]
  refine ⟨?_,?_,fun hclosed => absurd hclosed hopen⟩
  · intro n hn
    have hmem : n ∈ pending s p.1 (virtPort2Token v) := by
      simpa only [pending,hinbox] using hn
    rw [hcore,hpending] at hmem
    simp at hmem
  · rw [hrecovery,hcore]
    exact hwaiting

/-- The rest of an admitted request keeps every client where its stage says. -/
theorem inv_finish (h : Inv s) (t : Fin tasks) (x : Outcomes)
    (hG : Admitted s (.finish t x)) : Inv (finishRequest s t x) := by
  cases hserv : s.server.serving t with
  | none =>
    have hsame : finishRequest s t x = s := by simp only [finishRequest,hserv]
    rw [hsame]
    exact h
  | some a =>
    obtain ⟨hserver,hinbox⟩ := parts_finish (x := x) hserv
    have hphase := RecoveryMonitor.phase_finish s.server t x
    have hnote : notification (RecoveryMonitor.step s.server (.finish t x)) =
        notification s.server := by rw [notification,notification,hphase]
    constructor <;> rw [hserver]
    · exact RecoveryMonitor.recoveryInv_step h.server (h.timely hG)
    · rw [hphase]
      exact h.walk
    · exact looked_finish h.server.1.ready h.looked t x
    · intro p hp
      rcases attached_finish h hserv hp with ⟨hold,-,hcoreId,-⟩ | ⟨v,-,-,-,-,hcoreId⟩
      · exact hcoreId.trans (h.named p hold)
      · exact hcoreId
    · intro core i j hi hj ht
      exact unique_finish h hG hserv hi hj ht
    · intro q n hn
      exact addressed_finish h hG hserv (hnote.symm.trans hn)
    · intro t' a' ha' hrest'
      exact serves_finish h hserv ha' hrest'
    · intro t' t'' a' a'' ha' ha''
      exact h.once t' t'' a' a'' (serving_finish ha').1 (serving_finish ha'').1
    · intro p hp
      rw [hphase]
      rcases attached_finish h hserv hp with
        ⟨hold,htoken,-,hidle⟩ | ⟨v,hport,hplace,hmtu,htoken,-⟩
      · have hfollows := follows_finish h hG hserv hold _ hidle
        have hdma := dma_finish h hG hserv hold
        simp only [view,hserver,htoken,hdma] at hfollows ⊢
        simpa only [pending,hinbox] using hfollows
      · exact follows_attach h hG hserv hport hplace hmtu htoken

end Requests

/-- Every admitted event keeps every client where its stage says. -/
theorem inv_step {s : System procs tasks} {e : Event procs tasks} (h : Inv s)
    (hG : Admitted s e) : Inv (step s e) := by
  cases e with
  | request t r => exact inv_request h t r
  | confirm t core ep id r => exact inv_beginConfirm h t core ep id r
  | finish t x => exact inv_finish h t x hG
  | monitor o => exact inv_monitor h o
  | recoveryTask core => exact inv_recoveryTask h core

theorem inv_init (csum : Bool) (cfg : List VirtPortCfg) :
    Inv (initSystem procs tasks csum cfg) := by
  have hnone : ∀ p, ((initSystem procs tasks csum cfg).server.at p).attached ≠ true := by
    intro p hp
    simp [initSystem,RecoveryMonitor.initRecovery,Recovery.at,ClientObj.attached,
      ClientObj.zero] at hp
  have hidle : ∀ t a, (initSystem procs tasks csum cfg).server.serving t ≠ some a := by
    intro t a
    simp [initSystem,RecoveryMonitor.initRecovery]
  exact ⟨RecoveryMonitor.recoveryInv_init csum cfg,List.nodup_nil,
    fun t a ha => absurd ha (hidle t a),fun p hp => absurd hp (hnone p),
    fun core i _ hi => absurd hi (hnone (core,i)),
    fun q n hn => by simp [initSystem,RecoveryMonitor.initRecovery,notification] at hn,
    fun t a ha => absurd ha (hidle t a),fun t _ a _ ha => absurd ha (hidle t a),
    fun p hp => absurd hp (hnone p)⟩

/-- Over every run of the monitor, the request tasks and the recovery tasks with
admitted attaches and confirmations, in any order: while the reset runs no
attached client has its DMA open, and while the monitor waits every attached
client that has taken its notifications has it open again. -/
theorem clients_follow_recovery (procs tasks : ℕ) (csum : Bool) (cfg : List VirtPortCfg)
    (events : List (Event procs tasks))
    (hG : Guarded step Admitted (initSystem procs tasks csum cfg) events) :
    Along step (fun s => ClosedForReset s ∧ OpenAgain s) (initSystem procs tasks csum cfg)
      events := by
  have hinv := along_of_guarded (fun _ _ h hG => inv_step h hG) (inv_init csum cfg) hG
  refine along_mono ?_ hinv
  intro s h
  constructor
  · intro hphase p hp
    have hfollows := h.follows p hp
    have hheld : stage s.server.phase p = .held := by
      rcases hphase with hph | hph <;> rw [hph] <;> rfl
    rw [hheld] at hfollows
    exact hfollows.2.2
  · intro hphase p hp hpending hclosed
    have hfollows := h.follows p hp
    rw [hphase] at hfollows
    exact hfollows.2.2 hclosed hpending

/-- The first of two cores or tasks. -/
def first : Fin 2 := ⟨0,Nat.two_pos⟩

/-- The second one. -/
def second : Fin 2 := ⟨1,Nat.one_lt_two⟩

/-- A request task begins a request of a client. -/
def begins (task core : Fin 2) (token : U32) (cmd : Cmd) : Event 2 2 :=
  .request task ⟨core,100#32,2#8,token,0#32,cmd⟩

/-- It finishes what it serves, with driver calls that succeed. -/
def finishes (task : Fin 2) : Event 2 2 := .finish task (plainOutcomes fun _ => 1518#32)

/-- The recovery task of a core takes a notification of the error, and a
request task begins its confirmation. -/
def confirms (task core : Fin 2) : List (Event 2 2) :=
  [.recoveryTask core,.confirm task core 100#32 2#8 1#32]

/-- Steps of the monitor that finds every awaited condition. -/
def advance (n : ℕ) : List (Event 2 2) := List.replicate n (.monitor ⟨true,true,true,true⟩)

/-- Two clients of one core and one of another attach, close their DMA, and
confirm while the monitor tells the others and polls, until the reset starts. -/
def untilReset : List (Event 2 2) :=
  [begins first first tokenNone (.attach switchPort0),
      begins second second tokenNone (.attach 27#32),finishes second,finishes first,
      begins second first tokenNone (.attach 26#32),finishes second] ++
    advance 11 ++ confirms first first ++ advance 3 ++ confirms second second ++
    [finishes second,finishes first] ++ advance 2 ++ confirms first first ++ [finishes first] ++
    advance 9

/-- The monitor finishes the round, the recovery tasks take the completion, and
one client detaches. -/
def untilDetached : List (Event 2 2) :=
  advance 10 ++ [.recoveryTask second,.recoveryTask first,.recoveryTask first,
    begins first second 2700#32 .detach,finishes first]

theorem clients_follow_recovery_of_three :
    Along step (fun s => ClosedForReset s ∧ OpenAgain s) (initSystem 2 2 false [])
        (untilReset ++ untilDetached) ∧
      (run step (initSystem 2 2 false []) untilReset).server.phase = .resetting ∧
      (run step (initSystem 2 2 false []) untilReset).dma (second,2700#32) = some false ∧
      (run step (initSystem 2 2 false []) (untilReset ++ untilDetached)).dma
        (first,2600#32) = some true := by
  refine ⟨clients_follow_recovery 2 2 false [] (untilReset ++ untilDetached) ?_,
    by decide +kernel,by decide +kernel,by decide +kernel⟩
  have hadvance : ∀ (s : System 2 2) n, Guarded step Admitted s (advance n) := by
    intro s n
    refine guarded_of_all fun s e he => ?_
    rw [List.eq_of_mem_replicate he]
    trivial
  -- only the events that finish a request are asked for something
  simp only [untilReset,untilDetached,begins,finishes,confirms,guarded_append,guarded_cons,
    guarded_nil,hadvance,true_and,and_true,and_assoc,Admitted]
  exact ⟨by decide +kernel,by decide +kernel,by decide +kernel,by decide +kernel,
    by decide +kernel,by decide +kernel,by decide +kernel⟩

end EthernetFirmware.RecoveryClients
