import EthernetFirmware.Lockstep
import EthernetFirmware.RemoteConfigMessages

/-!
# Frame preemption

When the link of a port comes up, the server has its peer verified, up to
twenty times, and then lets frames of the preemptable queues be interrupted.
The configuration is copied into a global object at initialisation, but of
the modes of the queues only as many bytes as there are queues are copied,
which are two modes of eight. The driver gets what the configuration asks
for exactly while the other six queues are to be express.
-/

namespace EthernetFirmware.IetPreemption

open Function RemoteConfig PackedRecords RemoteConfigMessages GuardedRuns Lockstep

/-- `Enet_MacPort`. -/
abbrev MacPort := Fin 8

/-- `CPSW_MACPORT_FIFO`. -/
def macPortFifo : ℕ := 8

/-- `ETHFW_NUM_IET_VERIFY_ATTEMPTS`. -/
def numIetVerifyAttempts : ℕ := 20

/-- `EnetMacPort_PreemptVerifyStatus`, as far as it is looked at. -/
inductive PreemptVerifyStatus where
  | disabled
  | succeeded
  | failed
  | rxRespondError
  | rxVerifyError
  | other (code : U32)
  deriving DecidableEq

/-- `EnetMacPort_QueuePreemptMode`. -/
inductive QueuePreemptMode where
  | express
  | preempt
  deriving DecidableEq

/-- Requests to the driver. -/
inductive Ioctl where
  | enablePreemptVerification (p : MacPort)
  | getPreemptVerifyStatus (p : MacPort)
  | disablePreemptVerification (p : MacPort)
  | enablePreemption (p : MacPort)
  | disablePreemption (p : MacPort)
  | setPreemptMinFragSize (p : MacPort) (preemptMinFragSize : U32)
  | setPreemptQueue (p : MacPort) (preemptMode : List QueuePreemptMode)
  deriving DecidableEq

/-- A mode for each queue; zero is express. -/
abbrev QueueMode := {modes : List U32 // modes.length = macPortFifo}

/-- `EthFwIET_Config`, and what `EthFwIET_Params` keeps of it. -/
structure IetConfig where
  /-- Minimum fragment size. -/
  minFragSize : U32
  /-- Peers are verified. -/
  macVerifyEnable : Bool
  /-- Modes of the queues. -/
  queueMode : QueueMode

/-- What the driver does in a round of the verification. -/
structure Round where
  /-- Status of the start. -/
  start : Status
  /-- Status of the question for the outcome. -/
  read : Status
  /-- What the question leaves as the outcome. -/
  verifyStatus : PreemptVerifyStatus

/-- What the driver does while a link is taken care of. -/
structure Driver where
  /-- Its rounds of the verification. -/
  rounds : ℕ → Round
  /-- Status of disabling the verification. -/
  disableVerification : Status
  /-- Status of the setting of the queues. -/
  setQueue : Status
  /-- Status of disabling preemption. -/
  disablePreemption : Status

/-- The round ends the verification. -/
def Round.stops (r : Round) : Bool :=
  r.start != sok || r.read != sok || r.verifyStatus == .succeeded ||
    r.verifyStatus == .rxRespondError || r.verifyStatus == .rxVerifyError

/-- The rounds of `EthFwIET_doIetVerification` that are left, from a round on
and with the outcome so far. -/
def verifyFrom (p : MacPort) (rounds : ℕ → Round) :
    ℕ → ℕ → PreemptVerifyStatus → List Ioctl × PreemptVerifyStatus
  | 0, _, v => ([],v)
  | tries + 1, k, v =>
    if (rounds k).start ≠ sok then ([.enablePreemptVerification p],v)
    else
      let round := [.enablePreemptVerification p,.getPreemptVerifyStatus p]
      if (rounds k).stops then (round,(rounds k).verifyStatus)
      else
        let r := verifyFrom p rounds tries (k + 1) (rounds k).verifyStatus
        (round ++ r.1,r.2)

/-- `EthFwIET_doIetVerification`. -/
def doIetVerification (p : MacPort) (rounds : ℕ → Round) : List Ioctl × PreemptVerifyStatus :=
  verifyFrom p rounds numIetVerifyAttempts 0 .failed

/-- Mode of a queue as the driver takes it. -/
def preemptMode (mode : U32) : QueuePreemptMode := if mode = 0#32 then .express else .preempt

variable (c : IetConfig) (p fpe : MacPort) (d : Driver)

/-- Verification of a link that came up. The port that disabling it names is
whatever the unset arguments hold. -/
def verification : List Ioctl × PreemptVerifyStatus :=
  if c.macVerifyEnable then doIetVerification p d.rounds
  else ([.disablePreemptVerification fpe],.disabled)

/-- The outcome lets preemption be enabled. -/
def passes (v : PreemptVerifyStatus) : Bool := v == .disabled || v == .succeeded

/-- `EthFwIET_handleLinkUp`. -/
def handleLinkUp : List Ioctl × Status :=
  let v := verification c p fpe d
  if passes v.2 then
    (v.1 ++ [.enablePreemption p,.setPreemptMinFragSize p c.minFragSize,
      .setPreemptQueue p (c.queueMode.val.map preemptMode)],d.setQueue)
  else (v.1,if c.macVerifyEnable then sok else d.disableVerification)

/-- `EthFwIET_handleLinkDown`. -/
def handleLinkDown : List Ioctl × Status := ([.disablePreemption p],d.disablePreemption)

/-- `EthFwIET_notifyLinkChange`, with the status it traces. -/
def notifyLinkChange (isLinkUp : Bool) : List Ioctl × Status :=
  if isLinkUp then handleLinkUp c p fpe d else handleLinkDown p d

/-- `memcpy` between the modes of the queues. -/
def copyQueueMode (n : ℕ) (src dst : QueueMode) : QueueMode :=
  ⟨u32.copyBytes n src.val dst.val,(Layout.length_decodeAll ..).trans dst.property⟩

/-- `EthFwIET_init`: of the modes, `CPSW_MACPORT_FIFO` bytes are copied. -/
def init (ietCfg obj : IetConfig) : IetConfig where
  minFragSize := ietCfg.minFragSize
  macVerifyEnable := ietCfg.macVerifyEnable
  queueMode := copyQueueMode macPortFifo ietCfg.queueMode obj.queueMode

/-- Calls of the module. -/
inductive Call where
  | init (ietCfg : IetConfig)
  | notifyLinkChange (p : MacPort) (isLinkUp : Bool) (d : Driver) (fpe : MacPort)

/-- The module: the requests it makes of the driver and the status it
traces. -/
def iet (obj : IetConfig) : Call → (List Ioctl × Status) × IetConfig
  | .init ietCfg => (([],sok),init ietCfg obj)
  | .notifyLinkChange p isLinkUp d fpe => (notifyLinkChange obj p fpe d isLinkUp,obj)

/-- What the configuration asks for: it is in effect as a whole, and every
request names the port whose link changed. -/
def asked (c : IetConfig) : Call → (List Ioctl × Status) × IetConfig
  | .init ietCfg => (([],sok),ietCfg)
  | .notifyLinkChange p isLinkUp d _ => (notifyLinkChange c p p d isLinkUp,c)

theorem length_express : (List.replicate macPortFifo 0#32).length = macPortFifo :=
  List.length_replicate

/-- `gEthFwIETObj` before any initialisation. -/
def zeroed : IetConfig := ⟨0#32,false,⟨List.replicate macPortFifo 0#32,length_express⟩⟩

/-- The object holds the configuration, with the modes of two queues. -/
structure Holds (obj c : IetConfig) : Prop where
  /-- The fragment size is that of the configuration. -/
  minFragSize : obj.minFragSize = c.minFragSize
  /-- Peers are verified when the configuration says so. -/
  macVerifyEnable : obj.macVerifyEnable = c.macVerifyEnable
  /-- The first two queues have the modes of the configuration, the others
  are express. -/
  queueMode : obj.queueMode.val = c.queueMode.val.take 2 ++ List.replicate 6 0#32

/-- A link that comes up asks for no more than the first two modes, and
without verification the unset arguments happen to name the port. -/
def Served (c : IetConfig) : Call → Prop
  | .init _ => True
  | .notifyLinkChange p isLinkUp d fpe => isLinkUp = true →
    (c.macVerifyEnable = false → fpe = p) ∧
      (passes (verification c p fpe d).2 = true → ∀ mode ∈ c.queueMode.val.drop 2, mode = 0#32)

variable {c p fpe d} {obj : IetConfig} {rounds : ℕ → Round} {v : PreemptVerifyStatus}
  {tries k : ℕ} {modes : List U32}

/-- A verification takes no more rounds than there are attempts. -/
theorem length_verifyFrom : (verifyFrom p rounds tries k v).1.length ≤ 2 * tries := by
  induction tries generalizing k v with
  | zero => simp [verifyFrom]
  | succ tries ih =>
    have hrest := ih (k := k + 1) (v := (rounds k).verifyStatus)
    unfold verifyFrom
    dsimp only
    split_ifs
    · simp only [List.length_singleton]
      omega
    · simp only [List.length_cons,List.length_nil]
      omega
    · simp only [List.length_append,List.length_cons,List.length_nil]
      omega

/-- A verification succeeds in the first round that ends it. -/
theorem verifyFrom_succeeded_iff (hv : v ≠ .succeeded) :
    (verifyFrom p rounds tries k v).2 = .succeeded ↔
      ∃ j < tries, (∀ i < j, (rounds (k + i)).stops = false) ∧ (rounds (k + j)).start = sok ∧
        (rounds (k + j)).verifyStatus = .succeeded := by
  induction tries generalizing k v with
  | zero => simpa [verifyFrom] using hv
  | succ tries ih =>
    unfold verifyFrom
    dsimp only
    have hfirst : ∀ j, (∀ i < j, (rounds (k + i)).stops = false) →
        (rounds k).stops = true → j = 0 := by
      intro j hj hstops
      by_contra hne
      have h0 := hj 0 (by omega)
      rw [Nat.add_zero,hstops] at h0
      contradiction
    split_ifs with hstart hstops
    · have hends : (rounds k).stops = true := by simp [Round.stops,hstart]
      refine iff_of_false hv ?_
      intro ⟨j,_,hbefore,hok,_⟩
      rw [hfirst j hbefore hends] at hok
      exact hstart hok
    · rw [not_not] at hstart
      constructor
      · intro hs
        exact ⟨0,by omega,by simp,hstart,hs⟩
      · intro ⟨j,_,hbefore,_,hs⟩
        rwa [hfirst j hbefore hstops] at hs
    · rw [not_not] at hstart
      rw [Bool.not_eq_true] at hstops
      have hgoes : (rounds k).verifyStatus ≠ .succeeded := by
        intro hs
        simp [Round.stops,hs] at hstops
      rw [ih hgoes]
      constructor
      · intro ⟨j,hj,hbefore,hok,hs⟩
        refine ⟨j + 1,by omega,fun i hi => ?_,?_,?_⟩
        · cases i with
          | zero => exact hstops
          | succ i =>
            rw [← Nat.add_assoc,Nat.add_right_comm]
            exact hbefore i (by omega)
        · rwa [← Nat.add_assoc,Nat.add_right_comm]
        · rwa [← Nat.add_assoc,Nat.add_right_comm]
      · intro ⟨j,hj,hbefore,hok,hs⟩
        cases j with
        | zero => exact absurd hs hgoes
        | succ j =>
          rw [← Nat.add_assoc,Nat.add_right_comm] at hok hs
          refine ⟨j,by omega,fun i hi => ?_,hok,hs⟩
          rw [Nat.add_right_comm]
          exact hbefore (i + 1) (by omega)

/-- Whatever the driver answers, a verification ends after at most twenty
rounds, and it succeeds exactly when one of them does and none before it ends
it. -/
theorem verification_rounds :
    (doIetVerification p rounds).1.length ≤ 2 * numIetVerifyAttempts ∧
      ((doIetVerification p rounds).2 = .succeeded ↔
        ∃ j < numIetVerifyAttempts, (∀ i < j, (rounds i).stops = false) ∧
          (rounds j).start = sok ∧ (rounds j).verifyStatus = .succeeded) := by
  have hfailed : PreemptVerifyStatus.failed ≠ .succeeded := by decide
  have hsucceeds : (doIetVerification p rounds).2 = .succeeded ↔ _ :=
    verifyFrom_succeeded_iff hfailed
  simp only [Nat.zero_add] at hsucceeds
  exact ⟨length_verifyFrom,hsucceeds⟩

/-- Initialisation copies two modes. -/
theorem init_queueMode (ietCfg : IetConfig) :
    (init ietCfg obj).queueMode.val =
      ietCfg.queueMode.val.take 2 ++ obj.queueMode.val.drop 2 := by
  have hsrc : 2 ≤ ietCfg.queueMode.val.length := by
    rw [ietCfg.queueMode.property]
    decide
  have hdst : 2 ≤ obj.queueMode.val.length := by
    rw [obj.queueMode.property]
    decide
  exact u32.copyBytes_mul hsrc hdst

example : (copyQueueMode macPortFifo ⟨[0#32,1#32,0#32,1#32,0#32,1#32,0#32,1#32],rfl⟩
    zeroed.queueMode).val = [0#32,1#32,0#32,0#32,0#32,0#32,0#32,0#32] := by decide

/-- After any initialisation the object holds that configuration. -/
theorem Holds.init (h : Holds obj c) (ietCfg : IetConfig) :
    Holds (init ietCfg obj) ietCfg := by
  refine ⟨rfl,rfl,?_⟩
  have htwo : (c.queueMode.val.take 2).length = 2 := by
    rw [List.length_take,c.queueMode.property]
    rfl
  rw [init_queueMode,h.queueMode,List.drop_left' htwo]

/-- Two modes are enough when the others are express. -/
theorem modes_eq_iff (h : modes.length = macPortFifo) :
    (modes.take 2 ++ List.replicate 6 0#32).map preemptMode = modes.map preemptMode ↔
      ∀ mode ∈ modes.drop 2, mode = 0#32 := by
  have hsplit : modes.map preemptMode =
      (modes.take 2).map preemptMode ++ (modes.drop 2).map preemptMode := by
    rw [← List.map_append,List.take_append_drop]
  have hlen : ((modes.drop 2).map preemptMode).length = 6 := by
    rw [List.length_map,List.length_drop,h]
    rfl
  rw [hsplit,List.map_append,List.append_cancel_left_eq,List.map_replicate,eq_comm,
    List.eq_replicate_iff]
  constructor
  · intro ⟨_,hall⟩ mode hmode
    have hexpress := hall _ (List.mem_map_of_mem hmode)
    unfold preemptMode at hexpress
    by_contra hne
    simp [hne] at hexpress
  · intro hall
    refine ⟨hlen,fun m hm => ?_⟩
    obtain ⟨mode,hmode,rfl⟩ := List.mem_map.mp hm
    rw [hall mode hmode]

/-- What disabling the verification names decides whether the verification
asks the driver what it should. -/
theorem verification_eq_iff :
    (verification c p fpe d).1 = (verification c p p d).1 ↔
      (c.macVerifyEnable = false → fpe = p) := by
  unfold verification
  cases c.macVerifyEnable with
  | false => simp
  | true => simp

theorem verification_outcome : (verification c p fpe d).2 = (verification c p p d).2 := by
  unfold verification
  split_ifs <;> rfl

/-- A link that comes up is served as the configuration asks. -/
theorem handleLinkUp_eq_iff (h : Holds obj c) :
    handleLinkUp obj p fpe d = handleLinkUp c p p d ↔
      (c.macVerifyEnable = false → fpe = p) ∧
        (passes (verification c p fpe d).2 = true →
          ∀ mode ∈ c.queueMode.val.drop 2, mode = 0#32) := by
  have hobj : verification obj p fpe d = verification c p fpe d := by
    unfold verification
    rw [h.macVerifyEnable]
  have houtcome : (verification c p p d).2 = (verification c p fpe d).2 :=
    verification_outcome.symm
  unfold handleLinkUp
  rw [hobj,h.minFragSize,h.macVerifyEnable,h.queueMode]
  dsimp only
  rw [houtcome,← verification_eq_iff (d := d),← modes_eq_iff c.queueMode.property]
  cases passes (verification c p fpe d).2 with
  | false => simp
  | true =>
    simp only [if_true,Prod.mk.injEq,and_true,true_implies]
    constructor
    · intro heq
      obtain ⟨hreq,htail⟩ := List.append_inj' heq rfl
      simp only [List.cons.injEq,Ioctl.setPreemptQueue.injEq,true_and,and_true] at htail
      exact ⟨hreq,htail⟩
    · intro ⟨hreq,hmodes⟩
      rw [hreq,hmodes]

/-- One call is answered as the configuration asks exactly when it asks for
no more than what was copied. -/
theorem step_exact (s : IetConfig × IetConfig) (a : Call) (h : Holds s.1 s.2) :
    Holds (both iet asked s a).1 (both iet asked s a).2 ∧ SameAnswer iet asked s a ↔
      Served s.2 a := by
  cases a with
  | init ietCfg => exact iff_of_true ⟨h.init ietCfg,rfl⟩ trivial
  | notifyLinkChange p isLinkUp d fpe =>
    have hheld : Holds (both iet asked s (.notifyLinkChange p isLinkUp d fpe)).1
        (both iet asked s (.notifyLinkChange p isLinkUp d fpe)).2 := h
    rw [and_iff_right hheld]
    cases isLinkUp with
    | false => exact iff_of_true rfl fun hup => absurd hup Bool.false_ne_true
    | true => exact (handleLinkUp_eq_iff h).trans (by simp [Served])

/-- A verification asks for nothing else. -/
theorem mem_verifyFrom {r : Ioctl} (h : r ∈ (verifyFrom p rounds tries k v).1) :
    r = .enablePreemptVerification p ∨ r = .getPreemptVerifyStatus p := by
  induction tries generalizing k v with
  | zero => contradiction
  | succ tries ih =>
    unfold verifyFrom at h
    dsimp only at h
    split_ifs at h
    · exact Or.inl (List.mem_singleton.mp h)
    · simpa using h
    · rcases List.mem_append.mp h with hround | hrest
      · simpa using hround
      · exact ih hrest

theorem setPreemptQueue_notMem_verification {q : MacPort} {l : List QueuePreemptMode} :
    .setPreemptQueue q l ∉ (verification c p fpe d).1 := by
  intro h
  unfold verification at h
  split_ifs at h
  · rcases mem_verifyFrom h with heq | heq <;> contradiction
  · simp at h

/-- Queues from the third on are express in every request of a link. -/
theorem express_of_holds (h : Holds obj c) {isLinkUp : Bool} {q : MacPort}
    {l : List QueuePreemptMode}
    (hmem : .setPreemptQueue q l ∈ (notifyLinkChange obj p fpe d isLinkUp).1) :
    ∀ m ∈ l.drop 2, m = .express := by
  have htwo : ((c.queueMode.val.take 2).map preemptMode).length = 2 := by
    rw [List.length_map,List.length_take,c.queueMode.property]
    rfl
  cases isLinkUp with
  | false =>
    have hdown : .setPreemptQueue q l ∈ [Ioctl.disablePreemption p] := hmem
    simp at hdown
  | true =>
    have hup : .setPreemptQueue q l ∈ (handleLinkUp obj p fpe d).1 := hmem
    unfold handleLinkUp at hup
    dsimp only at hup
    split at hup
    · rcases List.mem_append.mp hup with hv | hrest
      · exact absurd hv setPreemptQueue_notMem_verification
      · simp only [List.mem_cons,reduceCtorEq,false_or,List.not_mem_nil,or_false,
          Ioctl.setPreemptQueue.injEq] at hrest
        rw [hrest.2,h.queueMode,List.map_append,List.drop_left' htwo,List.map_replicate]
        intro m hm
        exact List.eq_of_mem_replicate hm
    · exact absurd hup setPreemptQueue_notMem_verification

theorem holds_zeroed : Holds zeroed zeroed := ⟨rfl,rfl,rfl⟩

/-- The object holds two modes of the configuration along every run. -/
theorem holds_step (s : IetConfig × IetConfig) (a : Call) (h : Holds s.1 s.2) :
    Holds (both iet asked s a).1 (both iet asked s a).2 := by
  cases a with
  | init ietCfg => exact h.init ietCfg
  | notifyLinkChange p isLinkUp d fpe => exact h

/-- No request of a run makes a queue from the third on preemptable. -/
theorem express_log (h : Holds obj c) (calls : List Call) {e : Call × (List Ioctl × Status)}
    {q : MacPort} {l : List QueuePreemptMode} (he : e ∈ log iet obj calls)
    (hmem : .setPreemptQueue q l ∈ e.2.1) : ∀ m ∈ l.drop 2, m = .express := by
  induction calls generalizing obj c with
  | nil => contradiction
  | cons a calls ih =>
    rcases List.mem_cons.mp he with rfl | hrest
    · cases a with
      | init ietCfg => contradiction
      | notifyLinkChange p isLinkUp d fpe => exact express_of_holds h hmem
    · exact ih (holds_step (obj,c) a h) hrest

/-- Over every run of initialisations and link changes, whatever the driver
answers, the driver is asked for what the configuration in effect says
exactly when every link that comes up and passes has express queues from the
third on, and no verification is disabled through unset arguments that do
not name the port; and no configuration makes a queue from the third on
preemptable. -/
theorem preemption_asked_iff (calls : List Call) :
    (Agree iet asked Holds (zeroed,zeroed) calls ↔ Guarded (next asked) Served zeroed calls) ∧
      ∀ e ∈ log iet zeroed calls, ∀ q l, .setPreemptQueue q l ∈ e.2.1 →
        ∀ m ∈ l.drop 2, m = .express := by
  constructor
  · rw [agree_iff_guarded step_exact holds_zeroed]
    exact guarded_second
  · intro e he q l hmem
    exact express_log holds_zeroed calls he hmem

end EthernetFirmware.IetPreemption
