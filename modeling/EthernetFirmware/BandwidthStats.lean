import Mathlib.Data.List.FinRange
import EthernetFirmware.CArrays
import EthernetFirmware.GuardedRuns
import EthernetFirmware.MonitorStats

/-!
# Bandwidth of the ports

The collector reads the statistics of the host port and of every MAC port
with link at each period, and reports the increase since the statistics it
read before, as octets with a fixed number more for each frame. A reset
clears the values reported and the statistics kept. The state keeps, beside
what the task stores, the readings of each port since the last reset,
newest first.
-/

namespace EthernetFirmware.BandwidthStats

open Function RemoteConfig CArrays GuardedRuns
open MonitorStats (Port allPorts)

/-- `APP_ETHFW_STATS_BW_MULT`. -/
def bwMult : U32 := 2

/-- `APP_ETHFW_STATS_BW_FRAMES_MULT`. -/
def bwFramesMult : U32 := 20

/-- `APP_ETHFW_STATS_CMD_RESET_BANDWIDTH`. -/
def cmdResetBandwidth : U32 := 1

/-- `APP_ETHFW_STATS_CMD_GET_BANDWIDTH`. -/
def cmdGetBandwidth : U32 := 2

/-- `Enet_Type`, the peripherals with these statistics. -/
inductive EnetType where
  /-- `ENET_CPSW_2G`. -/
  | cpsw2g
  /-- `ENET_CPSW_3G`. -/
  | cpsw3g
  /-- `ENET_CPSW_5G`. -/
  | cpsw5g
  /-- `ENET_CPSW_9G`. -/
  | cpsw9g
  deriving DecidableEq

/-- Direction of the traffic. -/
inductive Dir where
  /-- Transmit. -/
  | tx
  /-- Receive. -/
  | rx
  deriving DecidableEq

/-- `CpswStats_PortStats`, words of a statistics block. -/
abbrev PortStats := Fin 128 → U32

/-- Where the counters of a statistics block are. -/
structure Layout where
  /-- `txOctets` and `rxOctets`. -/
  octets : Dir → Fin 128
  /-- `txGoodFrames` and `rxGoodFrames`. -/
  goodFrames : Dir → Fin 128

/-- What is configured: the peripheral, and the drivers' structures. -/
structure Config where
  /-- Type of the peripheral. -/
  enetType : EnetType
  /-- `CpswStats_HostPort_2g`. -/
  hostPort2g : Layout
  /-- `CpswStats_HostPort_Ng`. -/
  hostPortNg : Layout
  /-- `sizeof(app_ethfw_port_bandwidth_t)`. -/
  bandwidthSize : U32

/-- Statistics after `memset`. -/
def zeroStats : PortStats := fun _ => 0

/-- `appEthfw_calculateBw`, for each direction. -/
def calculateBw (cfg : Config) (curr prev : PortStats) (d : Dir) : BitVec 64 :=
  let diffs : U32 × U32 := (0,0)
  let diffs :=
    if cfg.enetType = .cpsw2g then
      (curr (cfg.hostPort2g.octets d) - prev (cfg.hostPort2g.octets d),
        curr (cfg.hostPort2g.goodFrames d) - prev (cfg.hostPort2g.goodFrames d))
    else diffs
  let diffs :=
    if cfg.enetType = .cpsw9g ∨ cfg.enetType = .cpsw5g then
      (curr (cfg.hostPortNg.octets d) - prev (cfg.hostPortNg.octets d),
        curr (cfg.hostPortNg.goodFrames d) - prev (cfg.hostPortNg.goodFrames d))
    else diffs
  ((diffs.1 + diffs.2 * bwFramesMult) * bwMult).setWidth 64

/-- Entries of `app_ethfw_port_bandwidth_t` for a port. -/
structure PortBandwidth where
  /-- Link status. -/
  isportenabled : Bool
  /-- `tx_bandwidth` and `rx_bandwidth`. -/
  bandwidth : Dir → BitVec 64

/-- Entries of `app_ethfw_stats_obj_t` for a port. -/
structure PortObj where
  /-- Values reported. -/
  bw : PortBandwidth
  /-- Statistics read before. -/
  prevPortStats : PortStats

/-- Entries after `memset`. -/
def PortObj.zero : PortObj := ⟨⟨false,fun _ => 0⟩,zeroStats⟩

variable {n : ℕ}

/-- What a period of the collector finds; the peripheral has `n` MAC ports. -/
structure Iteration (n : ℕ) where
  /-- `EnetAppUtils_isPortLinkUp`. -/
  link : Fin n → Bool
  /-- Statistics of a port, where the driver can read them. -/
  sample : Port n → Option PortStats

/-- The host port is taken to have link always. -/
def Iteration.linkUp (it : Iteration n) : Port n → Bool
  | .host => true
  | .mac i => it.link i

/-- Statistics are read, or not. -/
def PortObj.read (cfg : Config) : Option PortStats → PortObj → PortObj
  | none, o => o
  | some curr, o => ⟨⟨o.bw.isportenabled,calculateBw cfg curr o.prevPortStats⟩,curr⟩

/-- A port in a period of `appEthfw_statsCollectorTask`. -/
def collectPort (cfg : Config) (it : Iteration n) (p : Port n) (o : PortObj) : PortObj :=
  let o := { o with bw.isportenabled := it.linkUp p }
  if o.bw.isportenabled then o.read cfg (it.sample p)
  else { o with bw.bandwidth := update (update o.bw.bandwidth .tx 0) .tx 0 }

/-- A period of `appEthfw_statsCollectorTask`: the host port, then the MAC
ports. -/
def collect (cfg : Config) (it : Iteration n) (obj : Port n → PortObj) : Port n → PortObj :=
  (allPorts n).foldl (fun obj p => update obj p (collectPort cfg it p (obj p))) obj

/-- `appEthfwStatsResetBwCalc`. -/
def resetBwCalc : Port n → PortObj := fun _ => .zero

/-- What `appEthFwStatsHandler` answers and leaves. -/
structure Answer (n : ℕ) where
  /-- Status. -/
  status : Status
  /-- Values copied to the caller. -/
  bw : Option (Port n → PortBandwidth)
  /-- The entries. -/
  obj : Port n → PortObj

/-- `appEthFwStatsHandler`. -/
def statsHandler (cfg : Config) (cmd prmSize : U32) (obj : Port n → PortObj) : Answer n :=
  if cmd = cmdResetBandwidth then ⟨0,none,resetBwCalc⟩
  else if cmd = cmdGetBandwidth then
    if prmSize = cfg.bandwidthSize then ⟨0,some fun p => (obj p).bw,obj⟩ else ⟨-1,none,obj⟩
  else ⟨-1,none,obj⟩

/-- Events of the collector's object. -/
inductive Event (n : ℕ) where
  /-- A period. -/
  | iterate (it : Iteration n)
  /-- A command of the remote service. -/
  | command (cmd prmSize : U32)

/-- The collector's object, and the readings of each port. -/
structure State (n : ℕ) where
  /-- The entries. -/
  obj : Port n → PortObj
  /-- Readings since the last reset, newest first; `none` where one failed. -/
  samples : Port n → List (Option PortStats)
  /-- There was a reset. -/
  wasReset : Bool

/-- State after `appEthfwStatsInit`. -/
def start (n : ℕ) : State n := ⟨fun _ => .zero,fun _ => [],false⟩

/-- A step. -/
def step (cfg : Config) (s : State n) : Event n → State n
  | .iterate it =>
    ⟨collect cfg it s.obj,
      fun p => if it.linkUp p then it.sample p :: s.samples p else s.samples p,s.wasReset⟩
  | .command cmd prmSize =>
    let obj := (statsHandler cfg cmd prmSize s.obj).obj
    if cmd = cmdResetBandwidth then ⟨obj,fun _ => [],true⟩ else ⟨obj,s.samples,s.wasReset⟩

/-- The structure of the peripheral's statistics. -/
def Config.layout (cfg : Config) : Layout :=
  if cfg.enetType = .cpsw2g then cfg.hostPort2g else cfg.hostPortNg

/-- Increase of a counter between two readings. -/
def increase (curr prev : PortStats) (i : Fin 128) : ℕ := (curr i - prev i).toNat

/-- Traffic of an increase. -/
def traffic (cfg : Config) (curr prev : PortStats) (d : Dir) : ℕ :=
  bwMult.toNat * (increase curr prev (cfg.layout.octets d) +
    bwFramesMult.toNat * increase curr prev (cfg.layout.goodFrames d))

/-- What is reported of a port after a period, from the readings up to it. -/
structure Reported (cfg : Config) (it : Iteration n) (s : State n) (p : Port n) : Prop where
  /-- With link, and the last two readings successful, the traffic between
  them. -/
  up : it.linkUp p = true → ∀ curr prev rest, s.samples p = some curr :: some prev :: rest →
    ∀ d, ((s.obj p).bw.bandwidth d).toNat = traffic cfg curr prev d
  /-- Without link, nothing. -/
  down : it.linkUp p = false → ∀ d, (s.obj p).bw.bandwidth d = 0
  /-- At the first successful reading after a reset not all that was ever
  counted, if there is any. -/
  first : it.linkUp p = true → s.wasReset = true → ∀ curr rest,
    s.samples p = some curr :: rest → (∀ r ∈ rest, r = none) →
    ∀ d, ((s.obj p).bw.bandwidth d).toNat = traffic cfg curr zeroStats d →
      traffic cfg curr zeroStats d = 0

/-- All ports are reported as measured after a period. -/
def StepReported (cfg : Config) (s : State n) : Event n → Prop
  | .iterate it => ∀ p, Reported cfg it (step cfg s (.iterate it)) p
  | .command _ _ => True

/-- The traffic can be reported: it fits 32 bits, or there is none where the
statistics of the peripheral are not looked at. -/
def Reportable (cfg : Config) (curr prev : PortStats) (d : Dir) : Prop :=
  if cfg.enetType = .cpsw3g then traffic cfg curr prev d = 0
  else traffic cfg curr prev d < 2 ^ 32

/-- The condition on a port in a period, in the state before it. -/
structure Determined (cfg : Config) (it : Iteration n) (s : State n) (p : Port n) : Prop where
  /-- With link, after a successful reading, the traffic since can be
  reported. -/
  up : it.linkUp p = true → ∀ curr prev rest, it.sample p = some curr →
    s.samples p = some prev :: rest → ∀ d, Reportable cfg curr prev d
  /-- Without link, nothing was reported as received before. -/
  down : it.linkUp p = false → (s.obj p).bw.bandwidth .rx = 0
  /-- At the first successful reading after a reset nothing was ever counted,
  or so much that it cannot be reported. -/
  first : it.linkUp p = true → s.wasReset = true → ∀ curr, it.sample p = some curr →
    (∀ r ∈ s.samples p, r = none) → ∀ d, Reportable cfg curr zeroStats d →
      traffic cfg curr zeroStats d = 0

/-- The condition on a step. -/
def StepDetermined (cfg : Config) (s : State n) : Event n → Prop
  | .iterate it => ∀ p, Determined cfg it s p
  | .command _ _ => True

section Values

variable {cfg : Config} {it : Iteration n} {curr prev : PortStats} {d : Dir} {p : Port n}

/-- Octets and frames as the code adds them, in 32 bits. -/
theorem toNat_sum (octets frames : U32) :
    (((octets + frames * bwFramesMult) * bwMult).setWidth 64).toNat =
      bwMult.toNat * (octets.toNat + bwFramesMult.toNat * frames.toNat) % 2 ^ 32 := by
  have hmult : bwMult.toNat = 2 := rfl
  have hframes : bwFramesMult.toNat = 20 := rfl
  rw [BitVec.toNat_setWidth,BitVec.toNat_mul,BitVec.toNat_add,BitVec.toNat_mul,hmult,hframes]
  omega

theorem toNat_calculateBw (cfg : Config) (curr prev : PortStats) (d : Dir) :
    (calculateBw cfg curr prev d).toNat =
      if cfg.enetType = .cpsw3g then 0 else traffic cfg curr prev d % 2 ^ 32 := by
  unfold calculateBw traffic Config.layout increase
  cases cfg.enetType with
  | cpsw2g => exact toNat_sum _ _
  | cpsw3g => rfl
  | cpsw5g => exact toNat_sum _ _
  | cpsw9g => exact toNat_sum _ _

/-- The value computed is the traffic exactly where that can be reported. -/
theorem calculateBw_exact_iff :
    (calculateBw cfg curr prev d).toNat = traffic cfg curr prev d ↔
      Reportable cfg curr prev d := by
  rw [toNat_calculateBw]
  unfold Reportable
  split_ifs with htype
  · exact eq_comm
  · exact ⟨fun h => by omega,Nat.mod_eq_of_lt⟩

/-- Every port is collected once. -/
theorem collect_apply (cfg : Config) (it : Iteration n) (obj : Port n → PortObj) (p : Port n) :
    collect cfg it obj p = collectPort cfg it p (obj p) := by
  have hnodup : (allPorts n).Nodup := by
    refine List.nodup_cons.mpr ⟨?_,(List.nodup_finRange n).map fun i j h => by cases h; rfl⟩
    intro h
    obtain ⟨i,-,hi⟩ := List.mem_map.mp h
    cases hi
  have hmem : p ∈ allPorts n := by
    cases p with
    | host => exact List.mem_cons_self
    | mac i => exact List.mem_cons_of_mem _ (List.mem_map_of_mem (List.mem_finRange i))
  unfold collect
  rw [foldl_update_apply (collectPort cfg it) hnodup,if_pos hmem]

/-- A successful reading is compared with the one kept, and kept. -/
theorem collectPort_of_sample {o : PortObj} (hup : it.linkUp p = true)
    (hsample : it.sample p = some curr) :
    (collectPort cfg it p o).bw.bandwidth = calculateBw cfg curr o.prevPortStats ∧
      (collectPort cfg it p o).prevPortStats = curr := by
  unfold collectPort
  dsimp only
  rw [if_pos hup,hsample]
  exact ⟨rfl,rfl⟩

/-- A failed reading is not kept. -/
theorem collectPort_of_failure {o : PortObj} (hup : it.linkUp p = true)
    (hsample : it.sample p = none) : (collectPort cfg it p o).prevPortStats = o.prevPortStats := by
  unfold collectPort
  dsimp only
  rw [if_pos hup,hsample]
  rfl

/-- Without link the value transmitted is cleared, and nothing else. -/
theorem collectPort_of_down {o : PortObj} (hdown : it.linkUp p = false) :
    (collectPort cfg it p o).bw.bandwidth .tx = 0 ∧
      (collectPort cfg it p o).bw.bandwidth .rx = o.bw.bandwidth .rx ∧
      (collectPort cfg it p o).prevPortStats = o.prevPortStats := by
  unfold collectPort
  dsimp only
  rw [if_neg (by rw [hdown]; exact Bool.false_ne_true)]
  exact ⟨rfl,rfl,rfl⟩

end Values

section Runs

variable {cfg : Config} {it : Iteration n} {s : State n} {p : Port n}

/-- The last successful reading, or zeros. -/
def lastSample : List (Option PortStats) → PortStats
  | [] => zeroStats
  | some curr :: _ => curr
  | none :: rest => lastSample rest

/-- The statistics kept are those of the last successful reading since the
last reset. -/
def Kept (s : State n) : Prop := ∀ p, (s.obj p).prevPortStats = lastSample (s.samples p)

theorem lastSample_of_failed {samples : List (Option PortStats)} (h : ∀ r ∈ samples, r = none) :
    lastSample samples = zeroStats := by
  induction samples with
  | nil => rfl
  | cons r rest ih =>
    obtain ⟨hr,hrest⟩ := List.forall_mem_cons.mp h
    rw [hr]
    exact ih hrest

theorem samples_of_up (hup : it.linkUp p = true) :
    (step cfg s (.iterate it)).samples p = it.sample p :: s.samples p := if_pos hup

theorem samples_of_down (hdown : it.linkUp p = false) :
    (step cfg s (.iterate it)).samples p = s.samples p :=
  if_neg (by rw [hdown]; exact Bool.false_ne_true)

theorem obj_iterate (cfg : Config) (it : Iteration n) (s : State n) (p : Port n) :
    (step cfg s (.iterate it)).obj p = collectPort cfg it p (s.obj p) :=
  collect_apply cfg it s.obj p

/-- Every step keeps the invariant. -/
theorem kept_step (hkept : Kept s) (e : Event n) : Kept (step cfg s e) := by
  intro p
  cases e with
  | iterate it =>
    rw [obj_iterate]
    cases hlink : it.linkUp p with
    | true =>
      rw [samples_of_up hlink]
      cases hsample : it.sample p with
      | none => exact (collectPort_of_failure hlink hsample).trans (hkept p)
      | some curr => exact (collectPort_of_sample hlink hsample).2
    | false =>
      rw [samples_of_down hlink]
      exact (collectPort_of_down hlink).2.2.trans (hkept p)
  | command cmd prmSize =>
    unfold step statsHandler
    dsimp only
    split_ifs with hreset hget hsize
    · rfl
    · exact hkept p
    · exact hkept p
    · exact hkept p

/-- The value reported after a successful reading is the traffic since the
one before exactly where that can be reported. -/
theorem bandwidth_exact_iff {curr prev : PortStats} (hkept : Kept s) (hup : it.linkUp p = true)
    (hsample : it.sample p = some curr) (hprev : lastSample (s.samples p) = prev) (d : Dir) :
    (((step cfg s (.iterate it)).obj p).bw.bandwidth d).toNat = traffic cfg curr prev d ↔
      Reportable cfg curr prev d := by
  rw [obj_iterate,(collectPort_of_sample hup hsample).1,hkept p,hprev]
  exact calculateBw_exact_iff

/-- With link a port is reported as measured exactly under the condition. -/
theorem reported_iff_of_up (hkept : Kept s) (hup : it.linkUp p = true) :
    Reported cfg it (step cfg s (.iterate it)) p ↔ Determined cfg it s p := by
  have hnotDown : it.linkUp p ≠ false := by
    rw [hup]
    exact Bool.noConfusion
  constructor
  · intro h
    constructor
    · intro _ curr prev rest hsample hsamples d
      have hprev : lastSample (s.samples p) = prev := by
        rw [hsamples]
        rfl
      refine (bandwidth_exact_iff hkept hup hsample hprev d).mp (h.up hup curr prev rest ?_ d)
      rw [samples_of_up hup,hsample,hsamples]
    · exact fun hdown => absurd hdown hnotDown
    · intro _ hreset curr hsample hfailed d hreportable
      refine h.first hup hreset curr (s.samples p) ?_ hfailed d ?_
      · rw [samples_of_up hup,hsample]
      · exact (bandwidth_exact_iff hkept hup hsample (lastSample_of_failed hfailed) d).mpr
          hreportable
  · intro h
    constructor
    · intro _ curr prev rest hsamples d
      rw [samples_of_up hup] at hsamples
      obtain ⟨hsample,hrest⟩ := List.cons.inj hsamples
      have hprev : lastSample (s.samples p) = prev := by
        rw [hrest]
        rfl
      exact (bandwidth_exact_iff hkept hup hsample hprev d).mpr
        (h.up hup curr prev rest hsample hrest d)
    · exact fun hdown => absurd hdown hnotDown
    · intro _ hreset curr rest hsamples hfailed d hhistory
      rw [samples_of_up hup] at hsamples
      obtain ⟨hsample,rfl⟩ := List.cons.inj hsamples
      have hprev := lastSample_of_failed hfailed
      exact h.first hup hreset curr hsample hfailed d
        ((bandwidth_exact_iff hkept hup hsample hprev d).mp hhistory)

/-- Without link it is so exactly where nothing was reported as received. -/
theorem reported_iff_of_down (hdown : it.linkUp p = false) :
    Reported cfg it (step cfg s (.iterate it)) p ↔ Determined cfg it s p := by
  have hnotUp : it.linkUp p ≠ true := by
    rw [hdown]
    exact Bool.noConfusion
  have hobj := obj_iterate cfg it s p
  obtain ⟨htx,hrx,-⟩ := collectPort_of_down hdown
  rw [← hobj] at htx hrx
  constructor
  · intro h
    constructor
    · exact fun hup => absurd hup hnotUp
    · intro _
      rw [← hrx]
      exact h.down hdown .rx
    · exact fun hup => absurd hup hnotUp
  · intro h
    constructor
    · exact fun hup => absurd hup hnotUp
    · intro _ d
      cases d with
      | tx => exact htx
      | rx => exact hrx.trans (h.down hdown)
    · exact fun hup => absurd hup hnotUp

/-- A step reports what was measured exactly under the condition. -/
theorem stepReported_iff (hkept : Kept s) (e : Event n) :
    StepReported cfg s e ↔ StepDetermined cfg s e := by
  cases e with
  | iterate it =>
    refine forall_congr' fun p => ?_
    cases hlink : it.linkUp p with
    | true => exact reported_iff_of_up hkept hlink
    | false => exact reported_iff_of_down hlink
  | command cmd prmSize => exact Iff.rfl

end Runs

/-- The bandwidths are what was measured along exactly those runs whose
periods all meet the condition. -/
theorem bandwidth_measured_iff (cfg : Config) (es : List (Event n)) :
    Guarded (step cfg) (StepReported cfg) (start n) es ↔
      Guarded (step cfg) (StepDetermined cfg) (start n) es :=
  guarded_iff_guarded (I := Kept) (fun _ e hkept _ => kept_step hkept e)
    (fun _ e hkept => stepReported_iff hkept e) fun _ => rfl

/-- Counters that start in the first words. -/
def firstWords : Layout :=
  ⟨fun d => match d with | .tx => 0 | .rx => 1,fun d => match d with | .tx => 2 | .rx => 3⟩

/-- A port with an increase in every word of its statistics, then without
link, still has the value received. -/
theorem received_stays_without_link :
    ¬ Guarded (step ⟨.cpsw9g,firstWords,firstWords,200⟩)
      (StepReported ⟨.cpsw9g,firstWords,firstWords,200⟩) (start 1)
      [.iterate ⟨fun _ => true,fun _ => some fun _ => 100⟩,
        .iterate ⟨fun _ => false,fun _ => none⟩] := by
  intro hrun
  have hdown := (hrun.2.1 (.mac 0)).down rfl .rx
  revert hdown
  decide

end EthernetFirmware.BandwidthStats
