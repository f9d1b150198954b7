import Mathlib.Data.Fintype.Basic
import Mathlib.Data.List.FinRange
import EthernetFirmware.BitMasks
import EthernetFirmware.GuardedRuns
import EthernetFirmware.RemoteConfig

/-!
# Statistics of the monitor task

At every period the monitor task reads the error counters of the host port
and of the MAC ports with link, compares them with the values it saved,
passes the differences to the application's callback and starts a recovery
when a frame was dropped at the bottom of a receive FIFO. The hardware
counters have 32 bits; the saved values are wider.

One step reads one port, or takes one of the decisions between the reads.
The waiting for the attached clients is one step here; it has its own model
in `RecoveryMonitor`. The state keeps, beside what the task stores, what it
has read, reported and recovered so far, newest first.
-/

namespace EthernetFirmware.MonitorStats

open Function BitMasks RemoteConfig

/-- Transmit priorities of a port. -/
def enetPriNum : ℕ := 8

/-- Monitored error counters of a port in words of `w` bits. -/
@[ext] structure Stats (w : ℕ) where
  /-- Frames dropped at the bottom of the receive FIFO. -/
  rxBottomOfFifoDrop : BitVec w
  /-- Frames dropped at the top of the receive FIFO. -/
  rxTopOfFifoDrop : BitVec w
  /-- Frames dropped by transmit priority. -/
  txPriDrop : Fin enetPriNum → BitVec w

/-- Counters of a port as the hardware has them. -/
abbrev Snapshot := Stats 32

/-- `EthFwMon_Stats`. -/
abbrev MonStats := Stats 64

/-- Names of the monitored counters. -/
inductive Counter where
  /-- Bottom of FIFO drops. -/
  | rxBottomOfFifoDrop
  /-- Top of FIFO drops. -/
  | rxTopOfFifoDrop
  /-- Drops of a transmit priority. -/
  | txPriDrop (i : Fin enetPriNum)

variable {w n : ℕ}

/-- Value of a counter. -/
def Stats.get (s : Stats w) : Counter → BitVec w
  | .rxBottomOfFifoDrop => s.rxBottomOfFifoDrop
  | .rxTopOfFifoDrop => s.rxTopOfFifoDrop
  | .txPriDrop i => s.txPriDrop i

/-- Counters after `memset`. -/
def Stats.zero (w : ℕ) : Stats w := ⟨0,0,fun _ => 0⟩

/-- Hardware counters as the task stores and compares them. -/
def Snapshot.widen (s : Snapshot) : MonStats :=
  ⟨s.rxBottomOfFifoDrop.setWidth 64,s.rxTopOfFifoDrop.setWidth 64,
    fun i => (s.txPriDrop i).setWidth 64⟩

/-- Differences of all counters, in the machine's arithmetic. -/
def Stats.sub (s t : Stats w) : Stats w :=
  ⟨s.rxBottomOfFifoDrop - t.rxBottomOfFifoDrop,s.rxTopOfFifoDrop - t.rxTopOfFifoDrop,
    fun i => s.txPriDrop i - t.txPriDrop i⟩

/-- Port whose counters are read: index 0 of `monStats` is the host port and
index `i + 1` is MAC port `i`. -/
inductive Port (n : ℕ) where
  /-- Host port. -/
  | host
  /-- A MAC port of the firmware. -/
  | mac (i : Fin n)
  deriving DecidableEq

/-- `Enet_MacPort`. -/
inductive MacPort (n : ℕ) where
  /-- `ENET_MAC_PORT_INV`. -/
  | inv
  /-- A MAC port of the firmware. -/
  | port (i : Fin n)
  deriving DecidableEq

/-- `ETHFW_STATSMON_RXBOTTOMOFFIFODROP`. -/
def statsmonRxBottomOfFifoDrop : U32 := bit 0

/-- `ETHFW_STATSMON_RXTOPOFFIFODROP`. -/
def statsmonRxTopOfFifoDrop : U32 := bit 1

/-- `ETHFW_STATSMON_TXPRIDROP`. -/
def statsmonTxPriDrop : U32 := bit 2

/-- Event mask of the counters above their saved values. -/
def evtMask (saved stats : MonStats) : U32 :=
  (if saved.rxBottomOfFifoDrop < stats.rxBottomOfFifoDrop then statsmonRxBottomOfFifoDrop
    else 0) |||
  (if saved.rxTopOfFifoDrop < stats.rxTopOfFifoDrop then statsmonRxTopOfFifoDrop else 0) |||
  (if ∃ i, saved.txPriDrop i < stats.txPriDrop i then statsmonTxPriDrop else 0)

/-- What `EthFwMon_init` keeps of the configuration: which callbacks there
are. -/
structure Config where
  /-- `openLwipDmaCb`. -/
  openLwipDmaCb : Bool
  /-- `closeLwipDmaCb`. -/
  closeLwipDmaCb : Bool
  /-- `statsMonHostEvtCb`. -/
  statsMonHostEvtCb : Bool
  /-- `statsMonMacEvtCb`. -/
  statsMonMacEvtCb : Bool

/-- Recovery needs both DMA callbacks. -/
def Config.recoveryEn (cfg : Config) : Bool := cfg.openLwipDmaCb && cfg.closeLwipDmaCb

/-- One call of a statistics callback. -/
structure Report (n : ℕ) where
  /-- Port the call is about. -/
  port : Port n
  /-- Counters that increased. -/
  evtMask : U32
  /-- Differences to the saved values. -/
  diffStats : MonStats
  /-- Counters as read. -/
  stats : Snapshot

/-- The wait for a link at the end of a recovery. -/
structure Wait (n : ℕ) where
  /-- Port whose counters triggered the recovery. -/
  trigger : Port n
  /-- Port whose link is waited for. -/
  macPort : MacPort n
  deriving DecidableEq

/-- `EthRemoteCfg_ServerStatus` values the task sets. -/
inductive ServerStatus where
  /-- Ready for requests. -/
  | ready
  /-- A port no longer responds. -/
  | bad
  /-- Recovery is running. -/
  | recovery

/-- Where `EthFwMon_Task` stands. -/
inductive Phase (n : ℕ) where
  /-- Waiting for the next period. -/
  | waiting
  /-- MAC ports still to be looked at in this period. -/
  | scanning (rest : List (Fin n))
  /-- Waiting for the attached clients. -/
  | teardown
  /-- `EthFwMon_saveStats` in the reset handler; ports still to be saved. -/
  | saving (rest : List (Port n))
  /-- Waiting for the recovered port's link. -/
  | linkWait

/-- The task's data and what it did so far. -/
structure Monitor (n : ℕ) where
  /-- Saved counters. -/
  monStats : Port n → MonStats
  /-- Where the task stands. -/
  phase : Phase n
  /-- Port to wait for at the end of a recovery. -/
  recoveryMacPort : MacPort n
  /-- Status last published. -/
  serverStatus : ServerStatus
  /-- Port that triggered the last recovery. -/
  trigger : Port n
  /-- Counters read so far. -/
  snapshots : List (Port n × Snapshot)
  /-- Callbacks called so far. -/
  reports : List (Report n)
  /-- Recoveries started so far, by the port that triggered them. -/
  recoveries : List (Port n)
  /-- Link waits begun so far. -/
  waits : List (Wait n)

/-- What the environment answers at one step. -/
structure Observation where
  /-- Counters read, unless the request failed. -/
  read : Option Snapshot
  /-- Link state of the port asked for. -/
  linkUp : Bool
  /-- The attached clients have confirmed their teardown and no request is
  pending. -/
  clientsIdle : Bool
  /-- The rest of the reset handler passes its assertions. -/
  resetOk : Bool

/-- The body shared by the two analysis functions: compare the counters read
with the saved ones, call the port's callback if there is one, and tell
whether the port needs recovery. Only a call of the callback renews the
saved counters. -/
def analyze (cb : Bool) (p : Port n) (m : Monitor n) : Option Snapshot → Monitor n × Bool
  | none => (m,false)
  | some stats =>
    let saved := m.monStats p
    let evt := evtMask saved stats.widen
    let m := { m with snapshots := (p,stats) :: m.snapshots }
    (if evt ≠ 0 ∧ cb then
      { m with
        reports := ⟨p,evt,stats.widen.sub saved,stats⟩ :: m.reports
        monStats := update m.monStats p stats.widen }
    else m,decide (saved.rxBottomOfFifoDrop < stats.widen.rxBottomOfFifoDrop))

/-- `EthFwMon_analyzeHostStats`. -/
def analyzeHostStats (cfg : Config) (m : Monitor n) (read : Option Snapshot) :
    Monitor n × Bool :=
  analyze cfg.statsMonHostEvtCb .host m read

/-- `EthFwMon_analyzePortStats`. -/
def analyzePortStats (cfg : Config) (i : Fin n) (m : Monitor n) (read : Option Snapshot) :
    Monitor n × Bool :=
  analyze cfg.statsMonMacEvtCb (.mac i) m read

/-- One port of `EthFwMon_saveStats`. -/
def savePortStats (p : Port n) (m : Monitor n) : Option Snapshot → Monitor n
  | none => m
  | some stats =>
    { m with
      snapshots := (p,stats) :: m.snapshots
      monStats := update m.monStats p stats.widen }

/-- A port's counters need recovery. -/
def startRecovery (cfg : Config) (p : Port n) (m : Monitor n) : Monitor n :=
  if cfg.recoveryEn then
    { m with phase := .teardown, trigger := p, recoveries := p :: m.recoveries }
  else { m with phase := .waiting }

/-- Ports in the order they are saved. -/
def allPorts (n : ℕ) : List (Port n) := .host :: (List.finRange n).map .mac

/-- `EthFwMon_Task`, one read or decision at a time. -/
def step (cfg : Config) (m : Monitor n) (o : Observation) : Monitor n :=
  match m.phase with
  | .waiting =>
    let r := analyzeHostStats cfg m o.read
    if r.2 then startRecovery cfg .host r.1
    else { r.1 with phase := .scanning (List.finRange n) }
  | .scanning [] => { m with phase := .waiting }
  | .scanning (i :: rest) =>
    if o.linkUp then
      let r := analyzePortStats cfg i m o.read
      if r.2 then
        startRecovery cfg (.mac i) { r.1 with recoveryMacPort := .port i, serverStatus := .bad }
      else { r.1 with phase := .scanning rest }
    else { m with phase := .scanning rest }
  | .teardown =>
    if o.clientsIdle then
      { m with phase := .saving (allPorts n), serverStatus := .recovery,
               monStats := fun _ => Stats.zero 64 }
    else m
  | .saving [] =>
    if o.resetOk then
      { m with phase := .linkWait, waits := ⟨m.trigger,m.recoveryMacPort⟩ :: m.waits }
    else m
  | .saving (p :: rest) => { savePortStats p m o.read with phase := .saving rest }
  | .linkWait => if o.linkUp then { m with phase := .waiting, serverStatus := .ready } else m

/-- The task as it starts: counters and saved values are zero. -/
def start (n : ℕ) : Monitor n where
  monStats := fun _ => Stats.zero 64
  phase := .waiting
  recoveryMacPort := .inv
  serverStatus := .ready
  trigger := .host
  snapshots := []
  reports := []
  recoveries := []
  waits := []

end EthernetFirmware.MonitorStats
