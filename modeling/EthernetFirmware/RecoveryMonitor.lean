import Mathlib.Data.Finset.Card
import Mathlib.Data.List.FinRange
import Mathlib.Data.List.ProdSigma
import EthernetFirmware.GuardedRuns
import EthernetFirmware.ProxyServerTasks

/-!
# Recovery monitor

The monitor task counts the attached clients, tells them about the
hardware error, polls until the idle clients are as many as it counted,
waits for pending requests and resets the peripheral. It walks the client
table slot by slot without the server's mutex. Between any two of its visits,
and between clearing a client's idle mark and sending its notification, the
request tasks of the server run; they serve a request in two steps.

The state records, beside the task's own counters, which slots the
counters stand for, when each client was notified and confirmed, and when a
slot last changed hands. The first count is a snapshot: the reset is safe when
no token is stored behind it and every mark set behind the broadcast stands for
a confirmation of the client that was told. The idle count stands for attached
clients exactly while no counted client is freed.
-/

namespace EthernetFirmware.RecoveryMonitor

open Function SlotTables RemoteConfig ProxyServerClients ProxyServerRequests ProxyServerTasks
open GuardedRuns

variable {procs tasks : ℕ}

/-- A client slot of a core. -/
abbrev Place (procs : ℕ) := Fin procs × Slot

/-- Every slot, in the order of the nested loops over cores and slots. -/
def places (procs : ℕ) : List (Place procs) :=
  List.product (List.finRange procs) (List.finRange virtportPerClientMax)

theorem mem_places (p : Place procs) : p ∈ places procs :=
  List.mem_product.mpr ⟨List.mem_finRange p.1,List.mem_finRange p.2⟩

theorem nodup_places (procs : ℕ) : (places procs).Nodup :=
  (List.nodup_finRange procs).product (List.nodup_finRange virtportPerClientMax)

/-- Where `EthFwMon_Task` stands; the lists are the slots its current walk
has still to visit. -/
inductive Phase (procs : ℕ) where
  /-- Waiting for statistics that need recovery. -/
  | waiting
  /-- Taking the first count. -/
  | counting (rest : List (Place procs))
  /-- Telling the clients about the hardware error. -/
  | notifying (rest : List (Place procs))
  /-- The mark of the client at the place is cleared, and its notification of
  the hardware error is to be sent. -/
  | sending (p : Place procs) (rest : List (Place procs))
  /-- Polling the idle clients. -/
  | polling (rest : List (Place procs))
  /-- Waiting until no request is pending. -/
  | draining
  /-- The reset sequence is running. -/
  | resetting
  /-- Waiting for the recovered port's link. -/
  | linkWait
  /-- Telling the clients that the recovery is complete. -/
  | completing (rest : List (Place procs))
  /-- The mark of the client at the place is cleared, and its notification of
  the completion is to be sent. -/
  | announcing (p : Place procs) (rest : List (Place procs))
  deriving DecidableEq

/-- What the monitor observes at one of its steps. -/
structure Observation where
  /-- Statistics need recovery and recovery is enabled. -/
  needsRecovery : Bool
  /-- No address table entry is in use. -/
  noPendingReq : Bool
  /-- The reset handler succeeds. -/
  resetOk : Bool
  /-- The recovered port's link is up. -/
  isPortLinkUp : Bool

/-- A request whose first step has been taken. -/
structure Serving (procs : ℕ) where
  /-- The request. -/
  request : Request procs
  /-- What is left of it. -/
  rest : Rest
  /-- When its client object was taken or found. -/
  since : ℕ

/-- The slot the request works on. -/
def Serving.place (a : Serving procs) : Place procs := (a.request.remoteProcId,a.rest.hClient)

/-- The monitor next to the server and its request tasks. -/
structure Recovery (procs tasks : ℕ) where
  /-- Server and platform. -/
  world : World procs
  /-- The request each request task is in the middle of. -/
  serving : Fin tasks → Option (Serving procs)
  /-- Where the monitor stands. -/
  phase : Phase procs
  /-- Clients found attached by the first count. -/
  numTotalClients : ℕ
  /-- Clients found attached by the current poll. -/
  numActiveClients : ℕ
  /-- Clients found idle by the current walk. -/
  numIdleClients : ℕ
  /-- Slots the first count stands for. -/
  counted : Finset (Place procs)
  /-- Slots the idle count of the poll stands for; empty once the reset
  has started. -/
  polledIdle : Finset (Place procs)
  /-- Number of steps taken. -/
  time : ℕ
  /-- When the hardware error notification of this round began. -/
  roundAt : ℕ
  /-- When each slot was last taken, given a token or freed. -/
  changedAt : Place procs → ℕ
  /-- When each slot's client was last told about the hardware error. -/
  notifiedAt : Place procs → ℕ
  /-- When each slot's client last confirmed its teardown. -/
  confirmedAt : Place procs → ℕ

/-- Client object at a place. -/
def Recovery.at (s : Recovery procs tasks) (p : Place procs) : ClientObj :=
  s.world.client p.1 p.2

/-- Steps of the two parties. -/
inductive Step (procs tasks : ℕ) where
  /-- A request task that is free takes the first step of a request. -/
  | receive (task : Fin tasks) (r : Request procs)
  /-- A request task does the rest of its request. -/
  | finish (task : Fin tasks) (x : Outcomes)
  /-- The monitor takes its next step. -/
  | monitor (o : Observation)

/-- First half of a visit of `CpswProxyServer_bcastNotify`: the idle mark of a
client in use is cleared. -/
def clearMark (s : Recovery procs tasks) (p : Place procs) : Recovery procs tasks :=
  { s with world := s.world.modifyClient p.1 p.2 fun c => { c with isIdle := false } }

/-- One visit of `CpswProxyServer_getIdleClientCnt` for the first count. -/
def countPlace (s : Recovery procs tasks) (p : Place procs) : Recovery procs tasks :=
  if (s.at p).attached then
    { s with
      numTotalClients := s.numTotalClients + 1
      numIdleClients := if (s.at p).isIdle then s.numIdleClients + 1 else s.numIdleClients
      counted := insert p s.counted }
  else s

/-- One visit of `CpswProxyServer_getIdleClientCnt` for a poll. -/
def pollPlace (s : Recovery procs tasks) (p : Place procs) : Recovery procs tasks :=
  if (s.at p).attached then
    if (s.at p).isIdle then
      { s with
        numActiveClients := s.numActiveClients + 1
        numIdleClients := s.numIdleClients + 1
        polledIdle := insert p s.polledIdle }
    else { s with numActiveClients := s.numActiveClients + 1 }
  else s

/-- A poll starts over. -/
def startPoll (s : Recovery procs tasks) : Recovery procs tasks :=
  { s with phase := .polling (places procs), numActiveClients := 0, numIdleClients := 0,
           polledIdle := ∅ }

/-- `EthFwMon_Task`, one visit or decision at a time. -/
def monitorStep (s : Recovery procs tasks) (o : Observation) : Recovery procs tasks :=
  match s.phase with
  | .waiting =>
    if o.needsRecovery then
      { s with phase := .counting (places procs), numTotalClients := 0, numIdleClients := 0,
               counted := ∅ }
    else s
  | .counting [] =>
    if s.numTotalClients ≠ 0 then
      { s with phase := .notifying (places procs), roundAt := s.time }
    else { s with phase := .resetting }
  | .counting (p :: rest) => { countPlace s p with phase := .counting rest }
  | .notifying [] => startPoll s
  | .notifying (p :: rest) =>
    if (s.at p).inUse then { clearMark s p with phase := .sending p rest }
    else { s with phase := .notifying rest }
  | .sending p rest =>
    { s with phase := .notifying rest, notifiedAt := update s.notifiedAt p s.time }
  | .polling [] =>
    if s.numIdleClients = s.numTotalClients then { s with phase := .draining } else startPoll s
  | .polling (p :: rest) => { pollPlace s p with phase := .polling rest }
  | .draining => if o.noPendingReq then { s with phase := .resetting, polledIdle := ∅ } else s
  | .resetting => if o.resetOk then { s with phase := .linkWait } else s
  | .linkWait => if o.isPortLinkUp then { s with phase := .completing (places procs) } else s
  | .completing [] => { s with phase := .waiting }
  | .completing (p :: rest) =>
    if (s.at p).inUse then { clearMark s p with phase := .announcing p rest }
    else { s with phase := .completing rest }
  | .announcing _ rest => { s with phase := .completing rest }

/-- A free request task takes the first step of a request; a slot that is taken
is dated. -/
def receiveStep (s : Recovery procs tasks) (task : Fin tasks) (r : Request procs) :
    Recovery procs tasks :=
  match s.serving task with
  | some _ => s
  | none =>
    match beginRequest s.world r with
    | (w,.answered _) => { s with world := w }
    | (w,.left rest) =>
      let a : Serving procs := ⟨r,rest,s.time⟩
      { s with
        world := w
        serving := update s.serving task (some a)
        changedAt := if rest.attachPort.isSome then update s.changedAt a.place s.time
          else s.changedAt }

/-- The rest of a request gives its slot a token or frees it. -/
def changesHands (w : World procs) (x : Outcomes) (a : Serving procs) : Bool :=
  match a.rest with
  | .attach _ _ | .attachExt _ _ => mtuOk w x a.request.remoteProcId
  | .detach _ => true
  | .teardownCompletion _ => false

/-- The rest of a request confirms the teardown of the client it found, if that
client still has the slot. -/
def confirms (s : Recovery procs tasks) (a : Serving procs) : Bool :=
  match a.rest with
  | .teardownCompletion _ => decide (s.changedAt a.place < a.since)
  | _ => false

/-- A request task does the rest of its request. -/
def finishStep (s : Recovery procs tasks) (task : Fin tasks) (x : Outcomes) :
    Recovery procs tasks :=
  match s.serving task with
  | none => s
  | some a =>
    { s with
      world := (finishRequest s.world x a.request a.rest).1
      serving := update s.serving task none
      changedAt := if changesHands s.world x a then update s.changedAt a.place s.time
        else s.changedAt
      confirmedAt := if confirms s a then update s.confirmedAt a.place s.time
        else s.confirmedAt }

/-- A step has been taken. -/
def tick (s : Recovery procs tasks) : Recovery procs tasks := { s with time := s.time + 1 }

/-- Any interleaving of the two parties, one step at a time. -/
def step (s : Recovery procs tasks) : Step procs tasks → Recovery procs tasks
  | .receive t r => tick (receiveStep s t r)
  | .finish t x => tick (finishStep s t x)
  | .monitor o => tick (monitorStep s o)

/-- An initialised server with free request tasks and a waiting monitor. -/
def initRecovery (procs tasks : ℕ) (csum : Bool) (cfg : List VirtPortCfg) :
    Recovery procs tasks where
  world := initServer procs csum cfg
  serving := fun _ => none
  phase := .waiting
  numTotalClients := 0
  numActiveClients := 0
  numIdleClients := 0
  counted := ∅
  polledIdle := ∅
  time := 1
  roundAt := 0
  changedAt := fun _ => 0
  notifiedAt := fun _ => 0
  confirmedAt := fun _ => 0

/-- The first count has passed the place and the reset has not started. -/
def Passed : Phase procs → Place procs → Prop
  | .counting rest,p => p ∉ rest
  | .notifying _,_ | .sending _ _,_ | .polling _,_ | .draining,_ => True
  | .waiting,_ | .resetting,_ | .linkWait,_ | .completing _,_ | .announcing _ _,_ => False

/-- The monitor has cleared the mark at the place in this round, and the reset
has not started. -/
def Cleared : Phase procs → Place procs → Prop
  | .notifying rest,p | .sending _ rest,p => p ∉ rest
  | .polling _,_ | .draining,_ => True
  | .waiting,_ | .counting _,_ | .resetting,_ | .linkWait,_ | .completing _,_
  | .announcing _ _,_ => False

/-- The notification of the client at the place is still to be sent. -/
def BeingTold : Phase procs → Place procs → Prop
  | .sending q _,p => p = q
  | .waiting,_ | .counting _,_ | .notifying _,_ | .polling _,_ | .draining,_ | .resetting,_
  | .linkWait,_ | .completing _,_ | .announcing _ _,_ => False

/-- When a step starts the reset sequence, every attached client is idle: it
has been at its slot since before this round, was told about the error in this
round and has confirmed its teardown since. -/
def ResetsSafely (s : Recovery procs tasks) (a : Step procs tasks) : Prop :=
  s.phase ≠ .resetting → (step s a).phase = .resetting →
    ∀ p, ((step s a).at p).attached = true → ((step s a).at p).isIdle = true ∧
      s.changedAt p < s.roundAt ∧ s.roundAt ≤ s.notifiedAt p ∧ s.notifiedAt p < s.confirmedAt p

/-- Every client the idle count stands for is attached. -/
def CountsAttached (s : Recovery procs tasks) : Prop :=
  ∀ p ∈ s.polledIdle, (s.at p).attached = true

/-- An attach stores no token in a slot that the first count has passed, before
the reset. -/
def NoLateAttach (s : Recovery procs tasks) : Step procs tasks → Prop
  | .finish t x => ∀ a ∈ s.serving t, a.rest.attachPort.isSome = true →
      mtuOk s.world x a.request.remoteProcId = true → ¬ Passed s.phase a.place
  | .receive _ _ | .monitor _ => True

/-- A confirmation that marks an attached client whose mark has been cleared
came from that client, which has been told about the error. -/
def NoStrayMark (s : Recovery procs tasks) : Step procs tasks → Prop
  | .finish t _ => ∀ a ∈ s.serving t, a.rest = .teardownCompletion a.rest.hClient →
      (s.at a.place).attached = true → Cleared s.phase a.place →
      s.changedAt a.place < a.since ∧ ¬ BeingTold s.phase a.place
  | .receive _ _ | .monitor _ => True

/-- A step that does not mislead the monitor. -/
def Timely (s : Recovery procs tasks) (e : Step procs tasks) : Prop :=
  NoLateAttach s e ∧ NoStrayMark s e

/-- A detach frees no slot that the current poll has counted idle. -/
def NoCountedDetach (s : Recovery procs tasks) : Step procs tasks → Prop
  | .finish t _ => ∀ a ∈ s.serving t, a.rest = .detach a.rest.hClient → a.place ∉ s.polledIdle
  | .receive _ _ | .monitor _ => True

section Decidability

instance decidablePassed : (ph : Phase procs) → (p : Place procs) → Decidable (Passed ph p)
  | .counting _,_ => inferInstanceAs (Decidable (_ ∉ _))
  | .notifying _,_ | .sending _ _,_ | .polling _,_ | .draining,_ => instDecidableTrue
  | .waiting,_ | .resetting,_ | .linkWait,_ | .completing _,_ | .announcing _ _,_ =>
    instDecidableFalse

instance decidableCleared : (ph : Phase procs) → (p : Place procs) → Decidable (Cleared ph p)
  | .notifying _,_ | .sending _ _,_ => inferInstanceAs (Decidable (_ ∉ _))
  | .polling _,_ | .draining,_ => instDecidableTrue
  | .waiting,_ | .counting _,_ | .resetting,_ | .linkWait,_ | .completing _,_
  | .announcing _ _,_ => instDecidableFalse

instance decidableBeingTold :
    (ph : Phase procs) → (p : Place procs) → Decidable (BeingTold ph p)
  | .sending _ _,_ => inferInstanceAs (Decidable (_ = _))
  | .waiting,_ | .counting _,_ | .notifying _,_ | .polling _,_ | .draining,_ | .resetting,_
  | .linkWait,_ | .completing _,_ | .announcing _ _,_ => instDecidableFalse

instance decidableNoLateAttach (s : Recovery procs tasks) :
    (e : Step procs tasks) → Decidable (NoLateAttach s e)
  | .finish _ _ => inferInstanceAs (Decidable (∀ a ∈ s.serving _,_))
  | .receive _ _ | .monitor _ => instDecidableTrue

instance decidableNoStrayMark (s : Recovery procs tasks) :
    (e : Step procs tasks) → Decidable (NoStrayMark s e)
  | .finish _ _ => inferInstanceAs (Decidable (∀ a ∈ s.serving _,_))
  | .receive _ _ | .monitor _ => instDecidableTrue

instance (s : Recovery procs tasks) (e : Step procs tasks) : Decidable (Timely s e) :=
  inferInstanceAs (Decidable (_ ∧ _))

end Decidability

/-- Everything one step of the monitor can do. -/
inductive MonitorMove (s : Recovery procs tasks) : Recovery procs tasks → Prop where
  /-- The awaited condition does not hold yet. -/
  | stays : MonitorMove s s
  /-- Recovery is needed: the first count starts. -/
  | startCount (h : s.phase = .waiting) :
      MonitorMove s { s with phase := .counting (places procs), numTotalClients := 0,
                             numIdleClients := 0, counted := ∅ }
  /-- One visit of the first count. -/
  | count (p : Place procs) (rest : List (Place procs)) (h : s.phase = .counting (p :: rest)) :
      MonitorMove s { countPlace s p with phase := .counting rest }
  /-- Clients were counted: the notification starts. -/
  | startNotify (h : s.phase = .counting []) :
      MonitorMove s { s with phase := .notifying (places procs), roundAt := s.time }
  /-- No client was counted: the reset starts. -/
  | resetEmpty (h : s.phase = .counting []) (hn : s.numTotalClients = 0) :
      MonitorMove s { s with phase := .resetting }
  /-- The mark of a client in use is cleared. -/
  | clear (p : Place procs) (rest : List (Place procs)) (h : s.phase = .notifying (p :: rest))
      (hu : (s.at p).inUse = true) : MonitorMove s { clearMark s p with phase := .sending p rest }
  /-- A slot that is not in use is passed. -/
  | skip (p : Place procs) (rest : List (Place procs)) (h : s.phase = .notifying (p :: rest))
      (hu : (s.at p).inUse = false) : MonitorMove s { s with phase := .notifying rest }
  /-- The error notification is sent. -/
  | send (p : Place procs) (rest : List (Place procs)) (h : s.phase = .sending p rest) :
      MonitorMove s { s with phase := .notifying rest,
                             notifiedAt := update s.notifiedAt p s.time }
  /-- A poll starts after the notification or after another poll. -/
  | poll (h : s.phase = .notifying [] ∨ s.phase = .polling []) :
      MonitorMove s (startPoll s)
  /-- One visit of a poll. -/
  | pollVisit (p : Place procs) (rest : List (Place procs))
      (h : s.phase = .polling (p :: rest)) :
      MonitorMove s { pollPlace s p with phase := .polling rest }
  /-- As many clients are idle as were counted. -/
  | allIdle (h : s.phase = .polling []) (hn : s.numIdleClients = s.numTotalClients) :
      MonitorMove s { s with phase := .draining }
  /-- No request is pending: the reset starts. -/
  | resetDrained (h : s.phase = .draining) :
      MonitorMove s { s with phase := .resetting, polledIdle := ∅ }
  /-- The reset or a later phase moves on. -/
  | afterReset (ph : Phase procs) (hp : ph = .linkWait ∨ (∃ rest, ph = .completing rest) ∨
      ph = .waiting) : MonitorMove s { s with phase := ph }
  /-- The mark of a client in use is cleared before the completion is sent. -/
  | clearAgain (p : Place procs) (rest : List (Place procs))
      (h : s.phase = .completing (p :: rest)) :
      MonitorMove s { clearMark s p with phase := .announcing p rest }

theorem monitorStep_cases (s : Recovery procs tasks) (o : Observation) :
    MonitorMove s (monitorStep s o) := by
  unfold monitorStep
  cases hph : s.phase with
  | waiting =>
    dsimp only
    split
    · exact .startCount hph
    · exact .stays
  | counting rest =>
    cases rest with
    | nil =>
      dsimp only
      split
      · exact .startNotify hph
      · next hn => exact .resetEmpty hph (by simpa using hn)
    | cons p rest => exact .count p rest hph
  | notifying rest =>
    cases rest with
    | nil => exact .poll (Or.inl hph)
    | cons p rest =>
      dsimp only
      split
      · next hu => exact .clear p rest hph hu
      · next hu => exact .skip p rest hph (Bool.not_eq_true _ ▸ hu)
  | sending p rest => exact .send p rest hph
  | polling rest =>
    cases rest with
    | nil =>
      dsimp only
      split
      · next hn => exact .allIdle hph hn
      · exact .poll (Or.inr hph)
    | cons p rest => exact .pollVisit p rest hph
  | draining =>
    dsimp only
    split
    · exact .resetDrained hph
    · exact .stays
  | resetting =>
    dsimp only
    split
    · exact .afterReset _ (Or.inl rfl)
    · exact .stays
  | linkWait =>
    dsimp only
    split
    · exact .afterReset _ (Or.inr (Or.inl ⟨_,rfl⟩))
    · exact .stays
  | completing rest =>
    cases rest with
    | nil => exact .afterReset _ (Or.inr (Or.inr rfl))
    | cons p rest =>
      dsimp only
      split
      · exact .clearAgain p rest hph
      · exact .afterReset _ (Or.inr (Or.inl ⟨rest,rfl⟩))
  | announcing p rest => exact .afterReset _ (Or.inr (Or.inl ⟨rest,rfl⟩))

section Visits

variable {s : Recovery procs tasks} {p q : Place procs}

theorem at_clearMark :
    (clearMark s p).at q = if q = p then { s.at q with isIdle := false } else s.at q := by
  change (s.world.modifyClient p.1 p.2 _).client q.1 q.2 = _
  rw [client_modifyClient]
  by_cases h : q = p
  · subst h
    simp [Recovery.at]
  · have hne : ¬ (q.1 = p.1 ∧ q.2 = p.2) := fun hc => h (Prod.ext hc.1 hc.2)
    rw [if_neg hne,if_neg h]
    rfl

/-- Clearing a mark changes nothing else. -/
theorem attached_clearMark : ((clearMark s p).at q).attached = (s.at q).attached := by
  rw [at_clearMark]
  split <;> rfl

/-- A mark that is set after a clearing was set before, at another place. -/
theorem isIdle_clearMark (h : ((clearMark s p).at q).isIdle = true) :
    q ≠ p ∧ (s.at q).isIdle = true := by
  rw [at_clearMark] at h
  by_cases hq : q = p
  · simp [hq] at h
  · rw [if_neg hq] at h
    exact ⟨hq,h⟩

theorem world_countPlace : (countPlace s p).world = s.world := by
  unfold countPlace
  split <;> rfl

theorem world_pollPlace : (pollPlace s p).world = s.world := by
  unfold pollPlace
  split
  · split <;> rfl
  · rfl

/-- Counting touches neither the dates nor the requests in service. -/
theorem countPlace_dates (s : Recovery procs tasks) (p : Place procs) :
    (countPlace s p).time = s.time ∧ (countPlace s p).roundAt = s.roundAt ∧
      (countPlace s p).changedAt = s.changedAt ∧ (countPlace s p).notifiedAt = s.notifiedAt ∧
      (countPlace s p).confirmedAt = s.confirmedAt ∧ (countPlace s p).serving = s.serving := by
  unfold countPlace
  split <;> exact ⟨rfl,rfl,rfl,rfl,rfl,rfl⟩

theorem pollPlace_dates (s : Recovery procs tasks) (p : Place procs) :
    (pollPlace s p).time = s.time ∧ (pollPlace s p).roundAt = s.roundAt ∧
      (pollPlace s p).changedAt = s.changedAt ∧ (pollPlace s p).notifiedAt = s.notifiedAt ∧
      (pollPlace s p).confirmedAt = s.confirmedAt ∧ (pollPlace s p).serving = s.serving := by
  unfold pollPlace
  split
  · split <;> exact ⟨rfl,rfl,rfl,rfl,rfl,rfl⟩
  · exact ⟨rfl,rfl,rfl,rfl,rfl,rfl⟩

end Visits

/-- An object with the reserved token has no client. -/
theorem attached_tokenNone {c : ClientObj} (h : c.token = tokenNone) : c.attached = false := by
  simp [ClientObj.attached,h]

/-- What a step of a request task changes. -/
structure TaskMove (s s' : Recovery procs tasks) : Prop where
  /-- The monitor stays where it is. -/
  phase : s'.phase = s.phase
  /-- The first count stays. -/
  total : s'.numTotalClients = s.numTotalClients
  /-- The idle count stays. -/
  idle : s'.numIdleClients = s.numIdleClients
  /-- The counted places stay. -/
  counted : s'.counted = s.counted
  /-- The polled places stay. -/
  polledIdle : s'.polledIdle = s.polledIdle
  /-- The round stays. -/
  roundAt : s'.roundAt = s.roundAt
  /-- The notifications stay. -/
  notifiedAt : s'.notifiedAt = s.notifiedAt
  /-- Time goes on. -/
  time : s'.time = s.time + 1
  /-- The server stays ready. -/
  ready : Ready s'.world
  /-- A slot that changes hands does so now. -/
  changedAt : ∀ p, s'.changedAt p = s.changedAt p ∨ s'.changedAt p = s.time
  /-- A client that confirms does so now. -/
  confirmedAt : ∀ p, s'.confirmedAt p = s.confirmedAt p ∨ s'.confirmedAt p = s.time

theorem taskMove_tick {s : Recovery procs tasks} (hw : Ready s.world) : TaskMove s (tick s) :=
  ⟨rfl,rfl,rfl,rfl,rfl,rfl,rfl,rfl,hw,fun _ => Or.inl rfl,fun _ => Or.inl rfl⟩

/-- The first step of a request: nothing but time has changed, or an attach
took a free slot, which has no client yet. -/
theorem receive_cases (s : Recovery procs tasks) (t : Fin tasks) (r : Request procs)
    (hw : Ready s.world) :
    TaskMove s (step s (.receive t r)) ∧
      ∀ p, (step s (.receive t r)).confirmedAt p = s.confirmedAt p ∧
        ((step s (.receive t r)).at p = s.at p ∧
            (step s (.receive t r)).changedAt p = s.changedAt p ∨
          (s.at p).inUse = false ∧ ((step s (.receive t r)).at p).token = tokenNone) := by
  simp only [step,receiveStep]
  cases hserv : s.serving t with
  | some a => exact ⟨taskMove_tick hw,fun p => ⟨rfl,Or.inl ⟨rfl,rfl⟩⟩⟩
  | none =>
    dsimp only
    have heff := beginRequest_effect s.world r
    generalize beginRequest s.world r = b at heff ⊢
    cases heff with
    | answered res => exact ⟨taskMove_tick hw,fun p => ⟨rfl,Or.inl ⟨rfl,rfl⟩⟩⟩
    | found rest hget hport =>
      have hno : ¬ rest.attachPort.isSome = true := by simp [hport]
      dsimp only
      rw [if_neg hno]
      exact ⟨⟨rfl,rfl,rfl,rfl,rfl,rfl,rfl,rfl,hw,fun _ => Or.inl rfl,fun _ => Or.inl rfl⟩,
        fun p => ⟨rfl,Or.inl ⟨rfl,rfl⟩⟩⟩
    | taken v rest hport hfree =>
      have hsome : rest.attachPort.isSome = true := by simp [hport]
      dsimp only
      rw [if_pos hsome]
      refine ⟨⟨rfl,rfl,rfl,rfl,rfl,rfl,rfl,rfl,hw,fun p => ?_,fun _ => Or.inl rfl⟩,fun p =>
        ⟨rfl,?_⟩⟩
      · by_cases hp : p = (r.remoteProcId,rest.hClient)
        · right
          rw [hp]
          exact update_self _ _ _
        · exact Or.inl (update_of_ne hp _ _)
      · by_cases hp : p = (r.remoteProcId,rest.hClient)
        · subst hp
          exact Or.inr ⟨hfree,by simp [tick,Recovery.at]⟩
        · refine Or.inl ⟨?_,update_of_ne hp _ _⟩
          refine (client_modifyClient _ _ _ _ _ _).trans (if_neg ?_)
          exact fun hc => hp (Prod.ext hc.1 hc.2)

/-- The rest of a request writes the slot it works on. -/
theorem finish_writes {s : Recovery procs tasks} {t : Fin tasks} {x : Outcomes}
    {a : Serving procs} (hw : Ready s.world) (hserv : s.serving t = some a) :
    a.rest.Writes s.world x a.request.remoteProcId (s.at a.place)
      ((step s (.finish t x)).at a.place) := by
  simp only [step,finishStep,hserv]
  exact (finishRequest_effect hw x a.request a.rest).written

/-- The rest of a request: nothing but time has changed, or one slot has been
written. -/
theorem finish_cases (s : Recovery procs tasks) (t : Fin tasks) (x : Outcomes)
    (hw : Ready s.world) :
    TaskMove s (step s (.finish t x)) ∧
      ∀ p, (step s (.finish t x)).at p = s.at p ∧
          (step s (.finish t x)).changedAt p = s.changedAt p ∧
          (step s (.finish t x)).confirmedAt p = s.confirmedAt p ∨
        ∃ a, s.serving t = some a ∧ p = a.place ∧
          a.rest.Writes s.world x a.request.remoteProcId (s.at p) ((step s (.finish t x)).at p) ∧
          (step s (.finish t x)).changedAt p =
            (if changesHands s.world x a then s.time else s.changedAt p) ∧
          (step s (.finish t x)).confirmedAt p =
            if confirms s a then s.time else s.confirmedAt p := by
  cases hserv : s.serving t with
  | none =>
    simp only [step,finishStep,hserv]
    exact ⟨taskMove_tick hw,fun p => Or.inl ⟨rfl,rfl,rfl⟩⟩
  | some a =>
    have heff := finishRequest_effect hw x a.request a.rest
    have hwrites := finish_writes (x := x) hw hserv
    simp only [step,finishStep,hserv] at hwrites ⊢
    -- the two dates are updated at the slot or not at all
    have hdate : ∀ (f : Place procs → ℕ) (b : Bool) (p : Place procs),
        (if b then update f a.place s.time else f) p =
          if p = a.place ∧ b = true then s.time else f p := by
      intro f b p
      cases b with
      | false => simp
      | true => by_cases hp : p = a.place <;> simp [hp]
    refine ⟨⟨rfl,rfl,rfl,rfl,rfl,rfl,rfl,rfl,heff.ready,fun p => ?_,fun p => ?_⟩,fun p => ?_⟩
    · have hd := hdate s.changedAt (changesHands s.world x a) p
      dsimp only [tick]
      rw [hd]
      split
      · exact Or.inr rfl
      · exact Or.inl rfl
    · have hd := hdate s.confirmedAt (confirms s a) p
      dsimp only [tick]
      rw [hd]
      split
      · exact Or.inr rfl
      · exact Or.inl rfl
    · by_cases hp : p = a.place
      · subst hp
        refine Or.inr ⟨a,rfl,rfl,hwrites,?_,?_⟩
        · exact (hdate s.changedAt _ _).trans (by simp)
        · exact (hdate s.confirmedAt _ _).trans (by simp)
      · refine Or.inl ⟨?_,?_,?_⟩
        · exact heff.others p.1 p.2 fun hc => hp (Prod.ext hc.1 hc.2)
        · exact (hdate s.changedAt _ _).trans (by simp [hp])
        · exact (hdate s.confirmedAt _ _).trans (by simp [hp])

/-- Dates lie in the past; kept by every step of any run. -/
structure DatesInv (s : Recovery procs tasks) : Prop where
  /-- The server is ready. -/
  ready : Ready s.world
  /-- Notifications lie in the past. -/
  past : ∀ p, s.notifiedAt p < s.time
  /-- Slots changed hands in the past. -/
  changed : ∀ p, s.changedAt p < s.time
  /-- The notification of the round began in the past. -/
  round : s.roundAt < s.time

theorem datesInv_init (csum : Bool) (cfg : List VirtPortCfg) :
    DatesInv (initRecovery procs tasks csum cfg) :=
  ⟨ready_initServer csum cfg,fun _ => Nat.one_pos,fun _ => Nat.one_pos,Nat.one_pos⟩

/-- A step of a request task keeps the dates in the past. -/
theorem DatesInv.taskMove {s s' : Recovery procs tasks} (hs : DatesInv s) (h : TaskMove s s') :
    DatesInv s' := by
  refine ⟨h.ready,fun p => ?_,fun p => ?_,?_⟩
  · have hp := hs.past p
    rw [h.notifiedAt,h.time]
    omega
  · have hp := hs.changed p
    rw [h.time]
    rcases h.changedAt p with hc | hc <;> omega
  · have hr := hs.round
    rw [h.roundAt,h.time]
    omega

/-- A step of the monitor that keeps the server ready and the dates that it
does not set keeps them in the past. -/
theorem DatesInv.of_same {s s' : Recovery procs tasks} (hs : DatesInv s)
    (hw : Ready s'.world) (ht : s'.time = s.time) (hc : s'.changedAt = s.changedAt)
    (hn : ∀ p, s'.notifiedAt p ≤ s.time) (hr : s'.roundAt ≤ s.time) : DatesInv (tick s') := by
  refine ⟨hw,fun p => ?_,fun p => ?_,?_⟩
  · have hp := hn p
    change s'.notifiedAt p < s'.time + 1
    omega
  · have hp := hs.changed p
    change s'.changedAt p < s'.time + 1
    rw [hc]
    omega
  · change s'.roundAt < s'.time + 1
    omega

/-- The monitor's steps keep the dates in the past. -/
theorem datesInv_monitor {s : Recovery procs tasks} (hs : DatesInv s) (o : Observation) :
    DatesInv (step s (.monitor o)) := by
  have hr : s.roundAt ≤ s.time := Nat.le_of_lt hs.round
  have hn : ∀ p, s.notifiedAt p ≤ s.time := fun p => Nat.le_of_lt (hs.past p)
  have hmove := monitorStep_cases s o
  change DatesInv (tick (monitorStep s o))
  generalize monitorStep s o = s' at hmove ⊢
  cases hmove with
  | count p rest h =>
    obtain ⟨ht,hra,hc,hno,-,-⟩ := countPlace_dates s p
    refine hs.of_same ?_ ht hc (fun q => ?_) (hra.trans_le hr)
    · change Ready (countPlace s p).world
      rw [world_countPlace]
      exact hs.ready
    · change (countPlace s p).notifiedAt q ≤ s.time
      rw [hno]
      exact hn q
  | pollVisit p rest h =>
    obtain ⟨ht,hra,hc,hno,-,-⟩ := pollPlace_dates s p
    refine hs.of_same ?_ ht hc (fun q => ?_) (hra.trans_le hr)
    · change Ready (pollPlace s p).world
      rw [world_pollPlace]
      exact hs.ready
    · change (pollPlace s p).notifiedAt q ≤ s.time
      rw [hno]
      exact hn q
  | send p rest h =>
    refine hs.of_same hs.ready rfl rfl (fun q => ?_) hr
    change update s.notifiedAt p s.time q ≤ s.time
    by_cases hq : q = p
    · subst hq
      rw [update_self]
    · rw [update_of_ne hq]
      exact hn q
  | startNotify h => exact hs.of_same hs.ready rfl rfl hn (Nat.le_refl _)
  | stays => exact hs.of_same hs.ready rfl rfl hn hr
  | startCount h => exact hs.of_same hs.ready rfl rfl hn hr
  | resetEmpty h hzero => exact hs.of_same hs.ready rfl rfl hn hr
  | clear p rest h hu => exact hs.of_same hs.ready rfl rfl hn hr
  | skip p rest h hu => exact hs.of_same hs.ready rfl rfl hn hr
  | poll h => exact hs.of_same hs.ready rfl rfl hn hr
  | allIdle h hall => exact hs.of_same hs.ready rfl rfl hn hr
  | resetDrained h => exact hs.of_same hs.ready rfl rfl hn hr
  | afterReset ph hp => exact hs.of_same hs.ready rfl rfl hn hr
  | clearAgain p rest h => exact hs.of_same hs.ready rfl rfl hn hr

theorem datesInv_step {s : Recovery procs tasks} {e : Step procs tasks} (hs : DatesInv s) :
    DatesInv (step s e) := by
  cases e with
  | receive t r => exact hs.taskMove (receive_cases s t r hs.ready).1
  | finish t x => exact hs.taskMove (finish_cases s t x hs.ready).1
  | monitor o => exact datesInv_monitor hs o

/-- The client at the place was told about the error in this round, and its
mark stands for a confirmation since. -/
structure Told (s : Recovery procs tasks) (p : Place procs) : Prop where
  /-- It was told in this round. -/
  notified : s.roundAt ≤ s.notifiedAt p
  /-- If it is idle it has confirmed since. -/
  since : (s.at p).isIdle = true → s.notifiedAt p < s.confirmedAt p

/-- While the first count walks: it has counted the attached clients of the
places it has passed. -/
structure CountInv (s : Recovery procs tasks) (rest : List (Place procs)) : Prop where
  /-- No place is visited twice. -/
  nodup : rest.Nodup
  /-- The count is the number of places it stands for. -/
  total : s.numTotalClients = s.counted.card
  /-- Places to visit are not counted yet. -/
  fresh : ∀ p ∈ rest, p ∉ s.counted
  /-- Attached clients are counted or still to be visited. -/
  covers : ∀ p, (s.at p).attached = true → p ∈ rest ∨ p ∈ s.counted

/-- While the notification walks: the clients it has passed were told. The
mark of the client it is about to tell is clear. -/
structure NotifyInv (s : Recovery procs tasks) (current : Option (Place procs))
    (rest : List (Place procs)) : Prop where
  /-- The count is the number of places it stands for. -/
  total : s.numTotalClients = s.counted.card
  /-- Attached clients are counted. -/
  covers : ∀ p, (s.at p).attached = true → p ∈ s.counted
  /-- Attached clients are there since before the round. -/
  settled : ∀ p, (s.at p).attached = true → s.changedAt p < s.roundAt
  /-- The mark of the attached client that is about to be told is clear. -/
  clear : ∀ p, (s.at p).attached = true → p ∉ rest → current = some p →
    (s.at p).isIdle = false
  /-- The attached clients passed before it were told. -/
  told : ∀ p, (s.at p).attached = true → p ∉ rest → current ≠ some p → Told s p

/-- What the poll and the wait after it share. -/
structure QuietInv (s : Recovery procs tasks) : Prop where
  /-- Attached clients are counted. -/
  covers : ∀ p, (s.at p).attached = true → p ∈ s.counted
  /-- Attached clients are there since before the round. -/
  settled : ∀ p, (s.at p).attached = true → s.changedAt p < s.roundAt
  /-- Attached clients were told. -/
  told : ∀ p, (s.at p).attached = true → Told s p
  /-- Places polled idle stay idle while their clients are attached. -/
  marks : ∀ p ∈ s.polledIdle, (s.at p).attached = true → (s.at p).isIdle = true

/-- While a poll walks: its idle places are among the counted ones. -/
structure PollInv (s : Recovery procs tasks) (rest : List (Place procs)) : Prop where
  /-- Clients are counted, told and stay idle. -/
  quiet : QuietInv s
  /-- No place is visited twice. -/
  nodup : rest.Nodup
  /-- The count is the number of places it stands for. -/
  total : s.numTotalClients = s.counted.card
  /-- The idle count is the number of places it stands for. -/
  idle : s.numIdleClients = s.polledIdle.card
  /-- Places to visit are not polled yet. -/
  fresh : ∀ p ∈ rest, p ∉ s.polledIdle
  /-- Idle places are counted ones. -/
  within : s.polledIdle ⊆ s.counted

/-- What holds between the first count and the reset, phase by phase. -/
def Window (s : Recovery procs tasks) : Prop :=
  match s.phase with
  | .counting rest => CountInv s rest
  | .notifying rest => NotifyInv s none rest
  | .sending p rest => NotifyInv s (some p) rest
  | .polling rest => PollInv s rest
  | .draining => QuietInv s ∧ s.counted ⊆ s.polledIdle
  | _ => True

/-- A step of a request task after which, at the places the first count has
passed, no more clients are attached, no slot with a client has changed hands,
none has lost its idle mark, and a mark set behind the broadcast is dated. -/
structure Shrinks (s s' : Recovery procs tasks) : Prop extends TaskMove s s' where
  /-- Passed places keep or lose their clients. -/
  places : ∀ p, Passed s.phase p → (s'.at p).attached = true →
    (s.at p).attached = true ∧ s'.changedAt p = s.changedAt p ∧
      ((s.at p).isIdle = true → (s'.at p).isIdle = true)
  /-- A new mark behind the broadcast stands for a confirmation now, of a client
  that is told already. -/
  marked : ∀ p, Passed s.phase p → Cleared s.phase p → (s'.at p).attached = true →
    (s'.at p).isIdle = true → (s.at p).isIdle = true ∨
      s'.confirmedAt p = s.time ∧ ¬ BeingTold s.phase p

section Shrinking

variable {s s' : Recovery procs tasks} {p : Place procs}

theorem Shrinks.total_card (h : Shrinks s s') (ht : s.numTotalClients = s.counted.card) :
    s'.numTotalClients = s'.counted.card := by
  rw [h.total,h.counted]
  exact ht

theorem Shrinks.covers (h : Shrinks s s') (hp : ∀ p, Passed s.phase p)
    (hc : ∀ p, (s.at p).attached = true → p ∈ s.counted) :
    ∀ p, (s'.at p).attached = true → p ∈ s'.counted := by
  intro p ha
  rw [h.counted]
  exact hc p (h.places p (hp p) ha).1

theorem Shrinks.settled (h : Shrinks s s') (hp : ∀ p, Passed s.phase p)
    (hc : ∀ p, (s.at p).attached = true → s.changedAt p < s.roundAt) :
    ∀ p, (s'.at p).attached = true → s'.changedAt p < s'.roundAt := by
  intro p ha
  obtain ⟨hold,hchanged,-⟩ := h.places p (hp p) ha
  rw [hchanged,h.roundAt]
  exact hc p hold

/-- A client that was told stays told. -/
theorem Told.of_shrinks (h : Shrinks s s') (hd : DatesInv s) (hp : Passed s.phase p)
    (hclear : Cleared s.phase p) (ha : (s'.at p).attached = true) (ht : Told s p) : Told s' p := by
  refine ⟨by rw [h.roundAt,h.notifiedAt]; exact ht.notified,fun hi => ?_⟩
  have hpast := hd.past p
  rw [h.notifiedAt]
  rcases h.marked p hp hclear ha hi with hold | ⟨hnow,-⟩
  · rcases h.confirmedAt p with hc | hc
    · rw [hc]
      exact ht.since hold
    · rw [hc]
      exact hpast
  · rw [hnow]
    exact hpast

theorem CountInv.of_shrinks {rest : List (Place procs)} (h : Shrinks s s')
    (hp : ∀ p, p ∉ rest → Passed s.phase p) (hc : CountInv s rest) : CountInv s' rest := by
  refine ⟨hc.nodup,h.total_card hc.total,?_,?_⟩
  · rw [h.counted]
    exact hc.fresh
  · intro p ha
    by_cases hr : p ∈ rest
    · exact Or.inl hr
    · rw [h.counted]
      exact hc.covers p (h.places p (hp p hr) ha).1

theorem NotifyInv.of_shrinks {current : Option (Place procs)} {rest : List (Place procs)}
    (h : Shrinks s s') (hd : DatesInv s) (hp : ∀ p, Passed s.phase p)
    (hclear : ∀ p, p ∉ rest → Cleared s.phase p)
    (hcur : ∀ p, current = some p → BeingTold s.phase p)
    (hn : NotifyInv s current rest) : NotifyInv s' current rest := by
  refine ⟨h.total_card hn.total,h.covers hp hn.covers,h.settled hp hn.settled,?_,?_⟩
  · intro p ha hr hc
    have hidle := hn.clear p (h.places p (hp p) ha).1 hr hc
    by_contra hi
    rcases h.marked p (hp p) (hclear p hr) ha (Bool.not_eq_false _ ▸ hi) with hold | ⟨-,hno⟩
    · rw [hidle] at hold
      contradiction
    · exact hno (hcur p hc)
  · intro p ha hr hc
    have ht := hn.told p (h.places p (hp p) ha).1 hr hc
    exact ht.of_shrinks h hd (hp p) (hclear p hr) ha

theorem QuietInv.of_shrinks (h : Shrinks s s') (hd : DatesInv s) (hp : ∀ p, Passed s.phase p)
    (hclear : ∀ p, Cleared s.phase p) (hq : QuietInv s) : QuietInv s' := by
  refine ⟨h.covers hp hq.covers,h.settled hp hq.settled,fun p ha => ?_,fun p hmem ha => ?_⟩
  · exact (hq.told p (h.places p (hp p) ha).1).of_shrinks h hd (hp p) (hclear p) ha
  · rw [h.polledIdle] at hmem
    obtain ⟨hold,-,hidle⟩ := h.places p (hp p) ha
    exact hidle (hq.marks p hmem hold)

theorem PollInv.of_shrinks {rest : List (Place procs)} (h : Shrinks s s') (hd : DatesInv s)
    (hp : ∀ p, Passed s.phase p) (hclear : ∀ p, Cleared s.phase p) (hi : PollInv s rest) :
    PollInv s' rest := by
  refine ⟨hi.quiet.of_shrinks h hd hp hclear,hi.nodup,h.total_card hi.total,?_,?_,?_⟩
  · rw [h.idle,h.polledIdle]
    exact hi.idle
  · rw [h.polledIdle]
    exact hi.fresh
  · rw [h.polledIdle,h.counted]
    exact hi.within

/-- Shrinking steps keep the window's invariant. -/
theorem Window.of_shrinks (h : Shrinks s s') (hd : DatesInv s) (hw : Window s) : Window s' := by
  unfold Window at hw ⊢
  rw [h.phase]
  cases hph : s.phase with
  | counting rest =>
    rw [hph] at hw
    exact CountInv.of_shrinks h (fun p hr => by simpa [Passed,hph] using hr) hw
  | notifying rest =>
    rw [hph] at hw
    exact NotifyInv.of_shrinks h hd (fun p => by simp [Passed,hph])
      (fun p hr => by simpa [Cleared,hph] using hr) (fun p hc => by simp at hc) hw
  | sending q rest =>
    rw [hph] at hw
    refine NotifyInv.of_shrinks h hd (fun p => by simp [Passed,hph])
      (fun p hr => by simpa [Cleared,hph] using hr) (fun p hc => ?_) hw
    obtain rfl := Option.some.inj hc
    simp [BeingTold,hph]
  | polling rest =>
    rw [hph] at hw
    exact PollInv.of_shrinks h hd (fun p => by simp [Passed,hph])
      (fun p => by simp [Cleared,hph]) hw
  | draining =>
    rw [hph] at hw
    refine ⟨hw.1.of_shrinks h hd (fun p => by simp [Passed,hph])
      fun p => by simp [Cleared,hph],?_⟩
    rw [h.counted,h.polledIdle]
    exact hw.2
  | waiting => trivial
  | resetting => trivial
  | linkWait => trivial
  | completing rest => trivial
  | announcing q rest => trivial

/-- The first step of a request only shrinks the attached clients. -/
theorem receive_shrinks (hw : Ready s.world) (t : Fin tasks) (r : Request procs) :
    Shrinks s (step s (.receive t r)) := by
  obtain ⟨hmove,hplaces⟩ := receive_cases s t r hw
  refine ⟨hmove,fun p _ ha => ?_,fun p _ _ ha hi => ?_⟩
  · rcases (hplaces p).2 with ⟨hat,hchanged⟩ | ⟨-,hno⟩
    · rw [hat] at ha ⊢
      exact ⟨ha,hchanged,id⟩
    · rw [attached_tokenNone hno] at ha
      contradiction
  · rcases (hplaces p).2 with ⟨hat,-⟩ | ⟨-,hno⟩
    · rw [hat] at hi
      exact Or.inl hi
    · rw [attached_tokenNone hno] at ha
      contradiction

/-- Without a late attach and a stray mark, the rest of a request only shrinks
the attached clients at passed places. -/
theorem finish_shrinks (hw : Ready s.world) {t : Fin tasks} {x : Outcomes}
    (hG : Timely s (.finish t x)) : Shrinks s (step s (.finish t x)) := by
  obtain ⟨hmove,hplaces⟩ := finish_cases s t x hw
  refine ⟨hmove,fun p hpass ha => ?_,fun p hpass hclear ha hi => ?_⟩
  · rcases hplaces p with ⟨hat,hchanged,-⟩ | ⟨a,hserv,rfl,hwrites,hchanged,-⟩
    · rw [hat] at ha ⊢
      exact ⟨ha,hchanged,id⟩
    · have hlate := hG.1 a hserv
      rw [hchanged]
      cases hrest : a.rest with
      | attach v i | attachExt v i =>
        rw [hrest] at hwrites hlate
        obtain ⟨hu,hidle,htoken,-⟩ := hwrites
        have hmtu : ¬ mtuOk s.world x a.request.remoteProcId = true :=
          fun hm => hlate rfl hm hpass
        rw [if_neg hmtu] at htoken
        have hsame : ((step s (.finish t x)).at a.place).attached = (s.at a.place).attached := by
          rw [ClientObj.attached,hu,htoken]
          rfl
        refine ⟨hsame.symm.trans ha,by simp [changesHands,hrest,hmtu],fun h => ?_⟩
        exact hidle.trans h
      | detach i =>
        rw [hrest] at hwrites
        have hfree : (step s (.finish t x)).at a.place = ClientObj.free := hwrites
        rw [hfree] at ha
        exact absurd (ha.symm.trans (attached_tokenNone rfl)) (by decide)
      | teardownCompletion i =>
        rw [hrest] at hwrites
        have hmark : (step s (.finish t x)).at a.place =
          { s.at a.place with isIdle := true } := hwrites
        rw [hmark] at ha ⊢
        exact ⟨ha,by simp [changesHands,hrest],fun _ => rfl⟩
  · rcases hplaces p with ⟨hat,-⟩ | ⟨a,hserv,rfl,hwrites,-,hconfirmed⟩
    · rw [hat] at hi
      exact Or.inl hi
    · cases hrest : a.rest with
      | attach v i | attachExt v i =>
        rw [hrest] at hwrites
        exact Or.inl (hwrites.2.1.symm.trans hi)
      | detach i =>
        rw [hrest] at hwrites
        have hfree : (step s (.finish t x)).at a.place = ClientObj.free := hwrites
        rw [hfree] at ha
        exact absurd (ha.symm.trans (attached_tokenNone rfl)) (by decide)
      | teardownCompletion i =>
        rw [hrest] at hwrites
        have hmark : (step s (.finish t x)).at a.place =
          { s.at a.place with isIdle := true } := hwrites
        rw [hmark] at ha
        obtain ⟨hsince,hno⟩ := hG.2 a hserv (by rw [hrest]; rfl) ha hclear
        refine Or.inr ⟨?_,hno⟩
        rw [hconfirmed]
        simp [confirms,hrest,hsince]

end Shrinking

section Walks

variable {s : Recovery procs tasks} {p : Place procs} {rest : List (Place procs)}

/-- One visit of the first count. -/
theorem CountInv.visit (h : CountInv s (p :: rest)) :
    CountInv (tick { countPlace s p with phase := .counting rest }) rest := by
  obtain ⟨hp,hrest⟩ := List.nodup_cons.mp h.nodup
  have hfresh := h.fresh p List.mem_cons_self
  unfold tick countPlace
  by_cases ha : (s.at p).attached = true
  · rw [if_pos ha]
    refine ⟨hrest,?_,?_,?_⟩
    · dsimp only
      rw [Finset.card_insert_of_notMem hfresh,h.total]
    · intro q hq hmem
      rcases Finset.mem_insert.mp hmem with rfl | hmem
      · exact hp hq
      · exact h.fresh q (List.mem_cons_of_mem p hq) hmem
    · intro q hq
      rcases h.covers q hq with hmem | hmem
      · rcases List.mem_cons.mp hmem with rfl | hmem
        · exact Or.inr (Finset.mem_insert_self q _)
        · exact Or.inl hmem
      · exact Or.inr (Finset.mem_insert_of_mem hmem)
  · rw [if_neg ha]
    refine ⟨hrest,h.total,fun q hq => h.fresh q (List.mem_cons_of_mem p hq),?_⟩
    intro q hq
    rcases h.covers q hq with hmem | hmem
    · rcases List.mem_cons.mp hmem with rfl | hmem
      · exact absurd hq ha
      · exact Or.inl hmem
    · exact Or.inr hmem

/-- The mark of the next client is cleared. -/
theorem NotifyInv.clearNext (h : NotifyInv s none (p :: rest)) :
    NotifyInv (tick { clearMark s p with phase := .sending p rest }) (some p) rest := by
  have hon : ∀ q, ((clearMark s p).at q).attached = true → (s.at q).attached = true :=
    fun q ha => attached_clearMark.symm.trans ha
  refine ⟨h.total,fun q ha => h.covers q (hon q ha),fun q ha => h.settled q (hon q ha),?_,?_⟩
  · intro q _ _ hc
    obtain rfl := Option.some.inj hc
    change ((clearMark s p).at p).isIdle = false
    rw [at_clearMark,if_pos rfl]
  · intro q ha hr hc
    have hq : q ≠ p := fun hqp => hc (by rw [hqp])
    have hout : q ∉ p :: rest := fun hmem => (List.mem_cons.mp hmem).elim hq hr
    have ht := h.told q (hon q ha) hout (by simp)
    exact ⟨ht.notified,fun hi => ht.since (isIdle_clearMark hi).2⟩

/-- A slot without a client is passed. -/
theorem NotifyInv.skip (h : NotifyInv s none (p :: rest)) (hu : (s.at p).inUse = false) :
    NotifyInv (tick { s with phase := .notifying rest }) none rest := by
  refine ⟨h.total,h.covers,h.settled,fun q _ _ hc => by simp at hc,fun q ha hr _ => ?_⟩
  have hon : (s.at q).attached = true := ha
  have hq : q ≠ p := by
    rintro rfl
    simp [ClientObj.attached,hu] at hon
  have hout : q ∉ p :: rest := fun hmem => (List.mem_cons.mp hmem).elim hq hr
  have ht := h.told q hon hout (by simp)
  exact ⟨ht.notified,ht.since⟩

/-- The notification of a client whose mark is clear is sent. -/
theorem NotifyInv.send (hd : DatesInv s) (h : NotifyInv s (some p) rest) :
    NotifyInv (tick { s with phase := .notifying rest,
                             notifiedAt := update s.notifiedAt p s.time }) none rest := by
  refine ⟨h.total,h.covers,h.settled,fun q _ _ hc => by simp at hc,fun q ha hr _ => ?_⟩
  have hon : (s.at q).attached = true := ha
  by_cases hq : q = p
  · subst hq
    refine ⟨?_,fun hi => ?_⟩
    · change s.roundAt ≤ update s.notifiedAt q s.time q
      rw [update_self]
      exact Nat.le_of_lt hd.round
    · have hmark : (s.at q).isIdle = true := hi
      rw [h.clear q hon hr rfl] at hmark
      contradiction
  · have ht := h.told q hon hr fun hc => hq (Option.some.inj hc).symm
    have hsame : update s.notifiedAt p s.time q = s.notifiedAt q := update_of_ne hq _ _
    refine ⟨?_,fun hi => ?_⟩
    · change s.roundAt ≤ update s.notifiedAt p s.time q
      rw [hsame]
      exact ht.notified
    · change update s.notifiedAt p s.time q < s.confirmedAt q
      rw [hsame]
      exact ht.since hi

/-- One visit of a poll. -/
theorem PollInv.visit (h : PollInv s (p :: rest)) :
    PollInv (tick { pollPlace s p with phase := .polling rest }) rest := by
  obtain ⟨hp,hrest⟩ := List.nodup_cons.mp h.nodup
  have hfresh := h.fresh p List.mem_cons_self
  have hlater : ∀ q ∈ rest, q ∉ s.polledIdle :=
    fun q hq => h.fresh q (List.mem_cons_of_mem p hq)
  have hsame := h.quiet
  have htold : ∀ t : Recovery procs tasks, t.roundAt = s.roundAt → t.notifiedAt = s.notifiedAt →
      t.confirmedAt = s.confirmedAt → t.world = s.world →
      ∀ q, (s.at q).attached = true → Told t q := by
    intro t hra hn hc hw q ha
    refine ⟨by rw [hra,hn]; exact (hsame.told q ha).notified,fun hi => ?_⟩
    rw [hn,hc]
    rw [Recovery.at,hw] at hi
    exact (hsame.told q ha).since hi
  unfold tick pollPlace
  by_cases ha : (s.at p).attached = true
  · by_cases hi : (s.at p).isIdle = true
    · rw [if_pos ha,if_pos hi]
      refine ⟨⟨hsame.covers,hsame.settled,htold _ rfl rfl rfl rfl,?_⟩,hrest,h.total,?_,?_,?_⟩
      · intro q hmem hq
        rcases Finset.mem_insert.mp hmem with rfl | hmem
        · exact hi
        · exact hsame.marks q hmem hq
      · dsimp only
        rw [Finset.card_insert_of_notMem hfresh,h.idle]
      · intro q hq hmem
        rcases Finset.mem_insert.mp hmem with rfl | hmem
        · exact hp hq
        · exact hlater q hq hmem
      · exact Finset.insert_subset (hsame.covers p ha) h.within
    · rw [if_pos ha,if_neg hi]
      exact ⟨⟨hsame.covers,hsame.settled,htold _ rfl rfl rfl rfl,hsame.marks⟩,hrest,h.total,
        h.idle,hlater,h.within⟩
  · rw [if_neg ha]
    exact ⟨⟨hsame.covers,hsame.settled,htold _ rfl rfl rfl rfl,hsame.marks⟩,hrest,h.total,
      h.idle,hlater,h.within⟩

/-- A poll starts with nothing polled. -/
theorem pollInv_start (htotal : s.numTotalClients = s.counted.card)
    (hcovers : ∀ p, (s.at p).attached = true → p ∈ s.counted)
    (hsettled : ∀ p, (s.at p).attached = true → s.changedAt p < s.roundAt)
    (htold : ∀ p, (s.at p).attached = true → Told s p) :
    PollInv (tick (startPoll s)) (places procs) := by
  refine ⟨⟨hcovers,hsettled,fun q ha => ⟨(htold q ha).notified,(htold q ha).since⟩,?_⟩,
    nodup_places procs,htotal,rfl,?_,Finset.empty_subset _⟩
  · intro q hmem
    simp [tick,startPoll] at hmem
  · intro q _ hmem
    simp [tick,startPoll] at hmem

end Walks

/-- The monitor's steps keep the window's invariant. -/
theorem window_monitor {s : Recovery procs tasks} (hd : DatesInv s) (hw : Window s)
    (o : Observation) : Window (step s (.monitor o)) := by
  have hmove := monitorStep_cases s o
  change Window (tick (monitorStep s o))
  generalize monitorStep s o = s' at hmove ⊢
  cases hmove with
  | stays =>
    exact hw.of_shrinks ⟨taskMove_tick hd.ready,fun p _ ha => ⟨ha,rfl,id⟩,
      fun p _ _ _ hi => Or.inl hi⟩ hd
  | startCount h =>
    refine ⟨nodup_places procs,rfl,?_,fun p _ => Or.inl (mem_places p)⟩
    intro p _ hmem
    simp [tick] at hmem
  | count p rest h =>
    simp only [Window,h] at hw
    exact hw.visit
  | startNotify h =>
    simp only [Window,h] at hw
    refine ⟨hw.total,fun p ha => ?_,fun p _ => hd.changed p,
      fun p _ hout => absurd (mem_places p) hout,fun p _ hout => absurd (mem_places p) hout⟩
    exact (hw.covers p ha).resolve_left (by simp)
  | resetEmpty h hn => trivial
  | clear p rest h hu =>
    simp only [Window,h] at hw
    exact hw.clearNext
  | skip p rest h hu =>
    simp only [Window,h] at hw
    exact hw.skip hu
  | send p rest h =>
    simp only [Window,h] at hw
    exact hw.send hd
  | poll h =>
    rcases h with h | h
    · simp only [Window,h] at hw
      exact pollInv_start hw.total hw.covers hw.settled fun p ha =>
        hw.told p ha (by simp) (by simp)
    · simp only [Window,h] at hw
      exact pollInv_start hw.total hw.quiet.covers hw.quiet.settled hw.quiet.told
  | pollVisit p rest h =>
    simp only [Window,h] at hw
    exact hw.visit
  | allIdle h hn =>
    simp only [Window,h] at hw
    -- The polled places are counted ones and as many, so they are all of them.
    have heq : s.polledIdle = s.counted := by
      apply Finset.eq_of_subset_of_card_le hw.within
      rw [← hw.total,← hw.idle,hn]
    refine ⟨⟨hw.quiet.covers,hw.quiet.settled,fun p ha => ?_,hw.quiet.marks⟩,heq.ge⟩
    exact ⟨(hw.quiet.told p ha).notified,(hw.quiet.told p ha).since⟩
  | resetDrained h => trivial
  | afterReset ph hp =>
    rcases hp with rfl | ⟨rest,rfl⟩ | rfl <;> trivial
  | clearAgain p rest h => trivial

/-- What runs of timely steps keep. -/
def RecoveryInv (s : Recovery procs tasks) : Prop := DatesInv s ∧ Window s

theorem recoveryInv_init (csum : Bool) (cfg : List VirtPortCfg) :
    RecoveryInv (initRecovery procs tasks csum cfg) :=
  ⟨datesInv_init csum cfg,trivial⟩

theorem recoveryInv_step {s : Recovery procs tasks} {e : Step procs tasks} (hs : RecoveryInv s)
    (hG : Timely s e) : RecoveryInv (step s e) := by
  refine ⟨datesInv_step hs.1,?_⟩
  cases e with
  | receive t r => exact hs.2.of_shrinks (receive_shrinks hs.1.ready t r) hs.1
  | finish t x => exact hs.2.of_shrinks (finish_shrinks hs.1.ready hG) hs.1
  | monitor o => exact window_monitor hs.1 hs.2 o

/-- A request task does not move the monitor. -/
theorem phase_receive (s : Recovery procs tasks) (t : Fin tasks) (r : Request procs) :
    (step s (.receive t r)).phase = s.phase := by
  simp only [step,receiveStep]
  split
  · rfl
  · split <;> rfl

theorem phase_finish (s : Recovery procs tasks) (t : Fin tasks) (x : Outcomes) :
    (step s (.finish t x)).phase = s.phase := by
  simp only [step,finishStep]
  split <;> rfl

/-- From the invariant, the step that starts the reset finds every attached
client idle. -/
theorem resetsSafely_of_inv {s : Recovery procs tasks} {e : Step procs tasks}
    (hs : RecoveryInv s) : ResetsSafely s e := by
  obtain ⟨hd,hw⟩ := hs
  intro hbefore hafter p ha
  cases e with
  | receive t r => exact absurd ((phase_receive s t r).symm.trans hafter) hbefore
  | finish t x => exact absurd ((phase_finish s t x).symm.trans hafter) hbefore
  | monitor o =>
    change (tick (monitorStep s o)).phase = .resetting at hafter
    change ((tick (monitorStep s o)).at p).attached = true at ha
    change ((tick (monitorStep s o)).at p).isIdle = true ∧ _
    have hmove := monitorStep_cases s o
    generalize monitorStep s o = s' at hmove hafter ha ⊢
    cases hmove with
    | resetEmpty h hn =>
      simp only [Window,h] at hw
      have hempty : s.counted = ∅ := Finset.card_eq_zero.mp (hw.total.symm.trans hn)
      rcases hw.covers p ha with hmem | hmem
      · simp at hmem
      · simp [hempty] at hmem
    | resetDrained h =>
      simp only [Window,h] at hw
      have hidle := hw.1.marks p (hw.2 (hw.1.covers p ha)) ha
      have htold := hw.1.told p ha
      exact ⟨hidle,hw.1.settled p ha,htold.notified,htold.since hidle⟩
    | stays => exact absurd hafter hbefore
    | startCount h => simp [tick] at hafter
    | count q rest h => simp [tick] at hafter
    | startNotify h => simp [tick] at hafter
    | clear q rest h hu => simp [tick] at hafter
    | skip q rest h hu => simp [tick] at hafter
    | send q rest h => simp [tick] at hafter
    | poll h => simp [tick,startPoll] at hafter
    | pollVisit q rest h => simp [tick] at hafter
    | allIdle h hn => simp [tick] at hafter
    | afterReset ph hp =>
      rcases hp with rfl | ⟨rest,rfl⟩ | rfl <;> simp [tick] at hafter
    | clearAgain q rest h => simp [tick] at hafter

/-- A monitor step leaves every client attached as it was. -/
theorem attached_monitor (s : Recovery procs tasks) (o : Observation) (p : Place procs) :
    ((step s (.monitor o)).at p).attached = (s.at p).attached := by
  have hmove := monitorStep_cases s o
  change ((tick (monitorStep s o)).at p).attached = _
  generalize monitorStep s o = s' at hmove ⊢
  have hworld : ∀ t : Recovery procs tasks, t.world = s.world → t.at p = s.at p := by
    intro t ht
    unfold Recovery.at
    rw [ht]
  cases hmove with
  | count q rest h => exact congrArg ClientObj.attached (hworld (countPlace s q) world_countPlace)
  | pollVisit q rest h =>
    exact congrArg ClientObj.attached (hworld (pollPlace s q) world_pollPlace)
  | clear q rest h hu => exact attached_clearMark
  | clearAgain q rest h => exact attached_clearMark
  | _ => rfl

/-- A monitor step polls attached clients only. -/
theorem countsAttached_monitor {s : Recovery procs tasks} (hs : CountsAttached s)
    (o : Observation) : CountsAttached (step s (.monitor o)) := by
  intro p hmem
  rw [attached_monitor]
  have hmove := monitorStep_cases s o
  change p ∈ (tick (monitorStep s o)).polledIdle at hmem
  generalize monitorStep s o = s' at hmove hmem
  cases hmove with
  | count q rest h =>
    apply hs p
    unfold tick countPlace at hmem
    dsimp only at hmem
    split at hmem <;> exact hmem
  | pollVisit q rest h =>
    unfold tick pollPlace at hmem
    dsimp only at hmem
    split at hmem
    · next ha =>
      split at hmem
      · rcases Finset.mem_insert.mp hmem with rfl | hmem
        · exact ha
        · exact hs p hmem
      · exact hs p hmem
    · exact hs p hmem
  | poll h => simp [tick,startPoll] at hmem
  | resetDrained h => simp [tick] at hmem
  | _ => exact hs p hmem

/-- From an idle count that stands for attached clients, a step keeps it so
exactly when it frees none of them. -/
theorem step_countsAttached_iff {s : Recovery procs tasks} {e : Step procs tasks}
    (hr : Ready s.world) (hs : CountsAttached s) :
    CountsAttached (step s e) ↔ NoCountedDetach s e := by
  cases e with
  | monitor o => exact ⟨fun _ => trivial,fun _ => countsAttached_monitor hs o⟩
  | receive t r =>
    refine ⟨fun _ => trivial,fun _ p hmem => ?_⟩
    obtain ⟨hmove,hplaces⟩ := receive_cases s t r hr
    rw [hmove.polledIdle] at hmem
    have hon := hs p hmem
    rcases (hplaces p).2 with ⟨hat,-⟩ | ⟨hfree,-⟩
    · rw [hat]
      exact hon
    · simp [ClientObj.attached,hfree] at hon
  | finish t x =>
    obtain ⟨hmove,hplaces⟩ := finish_cases s t x hr
    constructor
    · intro hafter a hserv hrest hmem
      have hon := hafter a.place (by rw [hmove.polledIdle]; exact hmem)
      have hwrites := finish_writes (x := x) hr hserv
      rw [hrest] at hwrites
      have hfree : (step s (.finish t x)).at a.place = ClientObj.free := hwrites
      rw [hfree] at hon
      exact absurd (hon.symm.trans (attached_tokenNone rfl)) (by decide)
    · intro hG p hmem
      rw [hmove.polledIdle] at hmem
      have hon := hs p hmem
      rcases hplaces p with ⟨hat,-⟩ | ⟨a,hserv,rfl,hwrites,-⟩
      · rw [hat]
        exact hon
      · have hu : (s.at a.place).inUse = true ∧ (s.at a.place).token ≠ tokenNone := by
          simpa [ClientObj.attached] using hon
        cases hrest : a.rest with
        | attach v i | attachExt v i =>
          rw [hrest] at hwrites
          obtain ⟨huse,-,htoken,-⟩ := hwrites
          have hne : ((step s (.finish t x)).at a.place).token ≠ tokenNone := by
            rw [htoken]
            split
            · exact virtPort2Token_ne_tokenNone v
            · exact hu.2
          simp [ClientObj.attached,huse,hu.1,hne]
        | detach i => exact absurd hmem (hG a hserv (by rw [hrest]; rfl))
        | teardownCompletion i =>
          rw [hrest] at hwrites
          have hmark : (step s (.finish t x)).at a.place =
            { s.at a.place with isIdle := true } := hwrites
          rw [hmark]
          exact hon

/-- In every interleaving of the monitor with the request tasks, whatever
requests they serve: the reset starts only with every attached client told in
this round and idle since, when every step before it is timely; and the idle
count stands for attached clients exactly when no detach frees a client the
poll has counted. -/
theorem recovery_resets_safely (procs tasks : ℕ) (csum : Bool) (cfg : List VirtPortCfg)
    (steps : List (Step procs tasks)) :
    (Guarded step Timely (initRecovery procs tasks csum cfg) steps →
      Guarded step ResetsSafely (initRecovery procs tasks csum cfg) steps) ∧
    (Along step CountsAttached (initRecovery procs tasks csum cfg) steps ↔
      Guarded step NoCountedDetach (initRecovery procs tasks csum cfg) steps) := by
  constructor
  · intro hG
    exact guarded_of_invariant (I := RecoveryInv) (fun _ _ hs h => recoveryInv_step hs h)
      (fun _ _ hs _ => resetsSafely_of_inv hs) (recoveryInv_init csum cfg) hG
  · apply along_iff_guarded (I := fun s => DatesInv s ∧ CountsAttached s)
    · exact fun s hs => hs.2
    · intro s e hs hG
      exact ⟨datesInv_step hs.1,(step_countsAttached_iff hs.1.ready hs.2).mpr hG⟩
    · exact fun s e hs => step_countsAttached_iff hs.1.ready hs.2
    · refine ⟨datesInv_init csum cfg,fun p hmem => ?_⟩
      simp [initRecovery] at hmem

/-- A request of a client of the only core, from one of its endpoints. -/
def clientRequest (token : U32) (cmd : Cmd) : Request 1 :=
  ⟨⟨0,Nat.one_pos⟩,100#32,3#8,token,0#32,cmd⟩

/-- The first of two request tasks begins a request. -/
def receive (token : U32) (cmd : Cmd) : Step 1 2 :=
  .receive ⟨0,Nat.two_pos⟩ (clientRequest token cmd)

/-- It does the rest. -/
def finish : Step 1 2 := .finish ⟨0,Nat.two_pos⟩ (plainOutcomes fun _ => 1518#32)

/-- The second request task begins a request. -/
def receiveToo (token : U32) (cmd : Cmd) : Step 1 2 :=
  .receive ⟨1,Nat.one_lt_two⟩ (clientRequest token cmd)

/-- It does the rest. -/
def finishToo : Step 1 2 := .finish ⟨1,Nat.one_lt_two⟩ (plainOutcomes fun _ => 1518#32)

/-- A step of the monitor that finds every awaited condition. -/
def advance : Step 1 2 := .monitor ⟨true,true,true,true⟩

/-- Two clients attach through two tasks at the same time, are counted and
told, confirm their teardowns in turn between the visits of a poll, and the
reset starts. -/
def twoClients : List (Step 1 2) :=
  [receive 0#32 (.attach 25#32),receiveToo 0#32 (.attach 26#32),finishToo,finish] ++
    List.replicate 9 advance ++ [receive 2500#32 .teardownCompletion,advance,
      receiveToo 2600#32 .teardownCompletion,finish,advance,finishToo] ++ List.replicate 5 advance

theorem recovery_resets_safely_two_clients :
    Guarded step ResetsSafely (initRecovery 1 2 false []) twoClients ∧
      (run step (initRecovery 1 2 false []) twoClients).phase = .resetting :=
  ⟨(recovery_resets_safely 1 2 false [] twoClients).1 (by decide),by decide⟩

/-- The first client attaches, and the monitor counts it and tells it. -/
def afterCount : List (Step 1 2) :=
  [receive 0#32 (.attach 25#32),finish] ++ List.replicate 6 advance

/-- A confirmation of the first client. -/
def confirmation : List (Step 1 2) := [receive 2500#32 .teardownCompletion,finish]

/-- A second client attaches behind the first count, or has its slot taken
before the count and its token stored behind it: the reset starts while it is
attached and not idle. In the third run a confirmation marks the client before
the error is sent to it. In the last one the only client counted idle is freed
before the poll is compared, by a detach that found it before the poll. -/
theorem recovery_not_safe_after_late_attach :
    ¬ Guarded step ResetsSafely (initRecovery 1 2 false [])
        (afterCount ++ [receive 0#32 (.attach 26#32),finish] ++ confirmation ++
          List.replicate 6 advance ++ [advance]) ∧
      ¬ Guarded step ResetsSafely (initRecovery 1 2 false [])
        ([receiveToo 0#32 (.attach 26#32)] ++ afterCount ++ List.replicate 2 advance ++
          [finishToo] ++ confirmation ++ List.replicate 4 advance ++ [advance]) ∧
      ¬ Guarded step ResetsSafely (initRecovery 1 2 false [])
        ([receive 0#32 (.attach 25#32),finish] ++ List.replicate 5 advance ++ confirmation ++
          List.replicate 6 advance ++ [advance]) ∧
      ¬ Along step CountsAttached (initRecovery 1 2 false [])
        (afterCount ++ List.replicate 2 advance ++ confirmation ++
          [receiveToo 2500#32 .detach,advance,finishToo]) := by
  refine ⟨fun h => ?_,fun h => ?_,fun h => ?_,fun h => ?_⟩
  · have hlast := (guarded_concat.mp h).2
    have hidle := (hlast (by decide) (by decide) (0,1) (by decide)).1
    revert hidle
    decide
  · have hlast := (guarded_concat.mp h).2
    have hidle := (hlast (by decide) (by decide) (0,0) (by decide)).1
    revert hidle
    decide
  · have hlast := (guarded_concat.mp h).2
    have hsince := (hlast (by decide) (by decide) (0,0) (by decide)).2.2.2
    revert hsince
    decide
  · have hcount := along_final h (0,0) (by decide)
    revert hcount
    decide

end EthernetFirmware.RecoveryMonitor
