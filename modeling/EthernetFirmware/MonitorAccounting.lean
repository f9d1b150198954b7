import EthernetFirmware.MonitorStats

/-!
# Accounting of the monitored statistics

What the counters read so far call for is a function of the snapshots: per
port and counter the amounts it grew by, in the counter's own 32-bit
arithmetic, and per bottom of FIFO increase one recovery. The task is
compared with that after every step of a run.
-/

namespace EthernetFirmware.MonitorAccounting

open Function BitMasks RemoteConfig GuardedRuns MonitorStats

variable {n : ℕ}

/-- Counters of a port at its last snapshot; counters start at zero. -/
def lastSnapshot (p : Port n) : List (Port n × Snapshot) → Snapshot
  | [] => Stats.zero 32
  | (q,stats) :: rest => if q = p then stats else lastSnapshot p rest

/-- Growth of a counter between two snapshots, modulo `2 ^ 32`. -/
def increase (prev cur : Snapshot) (c : Counter) : ℕ := (cur.get c - prev.get c).toNat

/-- A list with an amount in front, unless it is zero. -/
def addAmount (a : ℕ) (l : List ℕ) : List ℕ := if a = 0 then l else a :: l

/-- Amounts a port's counter grew by. -/
def increasesOf (p : Port n) (c : Counter) : List (Port n × Snapshot) → List ℕ
  | [] => []
  | (q,stats) :: rest =>
    if q = p then addAmount (increase (lastSnapshot p rest) stats c) (increasesOf p c rest)
    else increasesOf p c rest

/-- Amounts the callbacks were told for a port's counter. -/
def reportedOf (p : Port n) (c : Counter) : List (Report n) → List ℕ
  | [] => []
  | r :: rest =>
    if r.port = p then addAmount (r.diffStats.get c).toNat (reportedOf p c rest)
    else reportedOf p c rest

/-- Ports whose bottom of FIFO counter grew, once for each time. -/
def bottomIncreases : List (Port n × Snapshot) → List (Port n)
  | [] => []
  | (p,stats) :: rest =>
    if increase (lastSnapshot p rest) stats .rxBottomOfFifoDrop = 0 then bottomIncreases rest
    else p :: bottomIncreases rest

/-- A wait is for the port that triggered its recovery. For the host port it
is for some port, and not for one an earlier recovery waited for. -/
def RightWait (w : Wait n) (earlier : List (Wait n)) : Prop :=
  match w.trigger with
  | .mac i => w.macPort = .port i
  | .host => w.macPort ≠ .inv ∧ w.macPort ∉ earlier.map Wait.macPort

/-- Every wait begun so far is right. -/
def RightWaits : List (Wait n) → Prop
  | [] => True
  | w :: earlier => RightWait w earlier ∧ RightWaits earlier

/-- The port has a callback. -/
def hasCb (cfg : Config) : Port n → Bool
  | .host => cfg.statsMonHostEvtCb
  | .mac _ => cfg.statsMonMacEvtCb

/-- The callbacks were told the amounts the counters grew by. -/
def Reported (cfg : Config) (reports : List (Report n)) (snapshots : List (Port n × Snapshot)) :
    Prop :=
  ∀ p, hasCb cfg p → ∀ c, reportedOf p c reports = increasesOf p c snapshots

/-- Reports, recoveries and waits are those the snapshots call for. -/
structure Accounted (cfg : Config) (m : Monitor n) : Prop where
  /-- Each increase is reported once, with its amount. -/
  reported : Reported cfg m.reports m.snapshots
  /-- Each bottom of FIFO increase triggers one recovery. -/
  recovered : m.recoveries = bottomIncreases m.snapshots
  /-- Each recovery waits for the port that triggered it. -/
  awaited : RightWaits m.waits

/-- Analysing these counters accounts for them: the port's callback starts
from the last snapshot and no counter fell below it, and the bottom of FIFO
counter exceeds its saved value, with recovery enabled, exactly if it
changed. -/
def AnalysisOk (cfg : Config) (m : Monitor n) (p : Port n) (cur : Snapshot) : Prop :=
  (hasCb cfg p → m.monStats p = (lastSnapshot p m.snapshots).widen ∧
    ∀ c, (lastSnapshot p m.snapshots).get c ≤ cur.get c) ∧
  (cur.rxBottomOfFifoDrop = (lastSnapshot p m.snapshots).rxBottomOfFifoDrop ↔
    ¬ (cfg.recoveryEn ∧
      (m.monStats p).rxBottomOfFifoDrop < cur.rxBottomOfFifoDrop.setWidth 64))

/-- Saving these counters loses none: they are those of the last snapshot,
for a port without callback at least the bottom of FIFO counter. -/
def SaveOk (cfg : Config) (m : Monitor n) (p : Port n) (cur : Snapshot) : Prop :=
  (hasCb cfg p → ∀ c, cur.get c = (lastSnapshot p m.snapshots).get c) ∧
  cur.rxBottomOfFifoDrop = (lastSnapshot p m.snapshots).rxBottomOfFifoDrop

/-- The condition on a step: counters read are analysed and saved without
loss, and a recovery that ends was not triggered by the host port. -/
def Regular (cfg : Config) (m : Monitor n) (o : Observation) : Prop :=
  match m.phase with
  | .waiting => ∀ cur, o.read = some cur → AnalysisOk cfg m .host cur
  | .scanning (i :: _) => o.linkUp → ∀ cur, o.read = some cur → AnalysisOk cfg m (.mac i) cur
  | .saving (p :: _) => ∀ cur, o.read = some cur → SaveOk cfg m p cur
  | .saving [] => o.resetOk → m.trigger ≠ .host
  | _ => True

/-- The port a host-triggered recovery would wait for. -/
def Leftover (m : Monitor n) : Prop :=
  m.recoveryMacPort = .inv ∨ m.recoveryMacPort ∈ m.waits.map Wait.macPort

/-- While a recovery runs `recoveryMacPort` is the port that triggered it, or
left over. -/
def TargetOk (cfg : Config) (m : Monitor n) : Prop :=
  match m.phase with
  | .teardown | .saving _ =>
    match m.trigger with
    | .mac i => m.recoveryMacPort = .port i
    | .host => Leftover m
  | _ => cfg.recoveryEn → Leftover m

/-- Invariant of runs that account for their snapshots so far. -/
structure Inv (cfg : Config) (m : Monitor n) : Prop where
  /-- Reports, recoveries and waits are right so far. -/
  accounted : Accounted cfg m
  /-- Saved counters of a port with callback are the last snapshot's or
  cleared. -/
  saved : ∀ p, hasCb cfg p →
    m.monStats p = (lastSnapshot p m.snapshots).widen ∨ m.monStats p = Stats.zero 64
  /-- The port to wait for. -/
  target : TargetOk cfg m

section Amounts

theorem addAmount_eq_iff {a b : ℕ} {l : List ℕ} : addAmount a l = addAmount b l ↔ a = b := by
  constructor
  · intro h
    unfold addAmount at h
    split_ifs at h with ha hb hb
    · rw [ha,hb]
    · exact absurd h.symm (List.cons_ne_self _ _)
    · exact absurd h (List.cons_ne_self _ _)
    · exact (List.cons.inj h).1
  · rintro rfl
    rfl

theorem eq_addAmount_iff {b : ℕ} {l : List ℕ} : l = addAmount b l ↔ b = 0 := by
  have h : addAmount 0 l = l := if_pos rfl
  rw [← addAmount_eq_iff (a := b) (b := 0) (l := l),h]
  exact eq_comm

@[simp] theorem lastSnapshot_self (p : Port n) (cur : Snapshot)
    (rest : List (Port n × Snapshot)) : lastSnapshot p ((p,cur) :: rest) = cur := if_pos rfl

theorem lastSnapshot_of_ne {p q : Port n} (cur : Snapshot) (rest : List (Port n × Snapshot))
    (h : q ≠ p) : lastSnapshot p ((q,cur) :: rest) = lastSnapshot p rest := if_neg h

theorem increase_eq_zero_iff {prev cur : Snapshot} {c : Counter} :
    increase prev cur c = 0 ↔ cur.get c = prev.get c := by
  have hcur := (cur.get c).isLt
  have hprev := (prev.get c).isLt
  unfold increase
  rw [← BitVec.toNat_inj,BitVec.toNat_sub]
  omega

/-- A difference of widened counters is the difference of the counters
exactly when they did not wrap. -/
theorem sub_widened_eq_iff (prev cur : U32) :
    (cur.setWidth 64 - prev.setWidth 64).toNat = (cur - prev).toNat ↔ prev ≤ cur := by
  have hcur := cur.isLt
  have hprev := prev.isLt
  rw [BitVec.le_def,BitVec.toNat_sub,BitVec.toNat_sub,BitVec.toNat_setWidth,BitVec.toNat_setWidth]
  omega

/-- The difference to a cleared value is right for a counter that was zero. -/
theorem sub_cleared_eq_iff (prev cur : U32) :
    (cur.setWidth 64 - 0 : BitVec 64).toNat = (cur - prev).toNat ↔ prev = 0 := by
  have hcur := cur.isLt
  have hprev := prev.isLt
  rw [← BitVec.toNat_inj,BitVec.toNat_sub,BitVec.toNat_sub,BitVec.toNat_setWidth]
  simp only [BitVec.ofNat_eq_ofNat,BitVec.toNat_ofNat]
  omega

end Amounts

section Words

@[simp] theorem get_sub {w : ℕ} (s t : Stats w) (c : Counter) :
    (s.sub t).get c = s.get c - t.get c := by
  cases c <;> rfl

@[simp] theorem get_zero {w : ℕ} (c : Counter) : (Stats.zero w).get c = 0 := by
  cases c <;> rfl

@[simp] theorem get_widen (s : Snapshot) (c : Counter) :
    s.widen.get c = (s.get c).setWidth 64 := by
  cases c <;> rfl

theorem stats_ext {w : ℕ} {s t : Stats w} (h : ∀ c, s.get c = t.get c) : s = t :=
  Stats.ext (h .rxBottomOfFifoDrop) (h .rxTopOfFifoDrop) (funext fun i => h (.txPriDrop i))

/-- The event mask is zero unless a counter exceeds its saved value. -/
theorem evtMask_ne_zero_iff (saved stats : MonStats) :
    evtMask saved stats ≠ 0 ↔ ∃ c, saved.get c < stats.get c := by
  have hany : (∃ c, saved.get c < stats.get c) ↔
      saved.rxBottomOfFifoDrop < stats.rxBottomOfFifoDrop ∨
      saved.rxTopOfFifoDrop < stats.rxTopOfFifoDrop ∨
      ∃ i, saved.txPriDrop i < stats.txPriDrop i := by
    constructor
    · rintro ⟨c,hc⟩
      cases c with
      | rxBottomOfFifoDrop => exact Or.inl hc
      | rxTopOfFifoDrop => exact Or.inr (Or.inl hc)
      | txPriDrop i => exact Or.inr (Or.inr ⟨i,hc⟩)
    · rintro (h | h | ⟨i,hi⟩)
      · exact ⟨.rxBottomOfFifoDrop,h⟩
      · exact ⟨.rxTopOfFifoDrop,h⟩
      · exact ⟨.txPriDrop i,hi⟩
  rw [hany]
  unfold evtMask
  split_ifs with hb ht hp hp ht hp hp <;> simp [*] <;> decide

/-- A callback that is called is told the right amounts exactly when it
starts from the last snapshot and no counter wrapped. -/
theorem diff_right_iff {saved : MonStats} {prev cur : Snapshot}
    (hsaved : saved = prev.widen ∨ saved = Stats.zero 64) :
    (∀ c, ((cur.widen.sub saved).get c).toNat = increase prev cur c) ↔
      saved = prev.widen ∧ ∀ c, prev.get c ≤ cur.get c := by
  have hwidened : saved = prev.widen →
      ((∀ c, ((cur.widen.sub saved).get c).toNat = increase prev cur c) ↔
        ∀ c, prev.get c ≤ cur.get c) := by
    rintro rfl
    refine forall_congr' fun c => ?_
    rw [get_sub,get_widen,get_widen]
    exact sub_widened_eq_iff _ _
  constructor
  · intro h
    have heq : saved = prev.widen := by
      rcases hsaved with hsaved | hsaved
      · exact hsaved
      · rw [hsaved]
        refine stats_ext fun c => ?_
        have hc := h c
        rw [hsaved,get_sub,get_widen,get_zero] at hc
        rw [get_widen,get_zero,(sub_cleared_eq_iff _ _).mp hc]
        rfl
    exact ⟨heq,(hwidened heq).mp h⟩
  · rintro ⟨heq,hle⟩
    exact (hwidened heq).mpr hle

/-- A callback that is not called misses nothing exactly when the saved
counters are those of the last snapshot and no counter wrapped. -/
theorem silence_right_iff {saved : MonStats} {prev cur : Snapshot}
    (hsaved : saved = prev.widen ∨ saved = Stats.zero 64)
    (hquiet : ¬ ∃ c, saved.get c < cur.widen.get c) :
    (∀ c, increase prev cur c = 0) ↔ saved = prev.widen ∧ ∀ c, prev.get c ≤ cur.get c := by
  have hle : ∀ c, (cur.get c).toNat ≤ (saved.get c).toNat := by
    intro c
    have hc : ¬ saved.get c < cur.widen.get c := fun h => hquiet ⟨c,h⟩
    have hcur := (cur.get c).isLt
    rw [get_widen,BitVec.lt_def,BitVec.toNat_setWidth] at hc
    omega
  simp only [increase_eq_zero_iff]
  constructor
  · intro h
    refine ⟨?_,fun c => by rw [h c]; exact BitVec.le_refl _⟩
    rcases hsaved with hsaved | hsaved
    · exact hsaved
    · rw [hsaved]
      refine stats_ext fun c => ?_
      have hc := hle c
      rw [hsaved,get_zero,h c] at hc
      have hzero : prev.get c = 0 := BitVec.eq_of_toNat_eq (by simpa using hc)
      rw [get_widen,get_zero,hzero]
      rfl
  · rintro ⟨heq,hprev⟩ c
    have hc := hle c
    have hcur := (prev.get c).isLt
    rw [heq,get_widen,BitVec.toNat_setWidth] at hc
    have hge : (prev.get c).toNat ≤ (cur.get c).toNat := hprev c
    apply BitVec.eq_of_toNat_eq
    omega

end Words

section Accounts

variable {cfg : Config} {p : Port n} {cur : Snapshot} {reports : List (Report n)}
  {snapshots : List (Port n × Snapshot)}

/-- A snapshot without report is accounted for when no counter of a port
with callback changed. -/
theorem reported_silent_iff (h : Reported cfg reports snapshots) :
    Reported cfg reports ((p,cur) :: snapshots) ↔
      (hasCb cfg p → ∀ c, increase (lastSnapshot p snapshots) cur c = 0) := by
  constructor
  · intro hnew hp c
    have hc := hnew p hp c
    rw [h p hp c,increasesOf,if_pos rfl] at hc
    exact eq_addAmount_iff.mp hc
  · intro hzero q hq c
    rw [h q hq c,increasesOf]
    by_cases hpq : p = q
    · subst hpq
      rw [if_pos rfl,hzero hq c]
      rfl
    · rw [if_neg hpq]

/-- A snapshot with a report is accounted for when the report tells the
amounts. -/
theorem reported_told_iff {r : Report n} (h : Reported cfg reports snapshots)
    (hp : hasCb cfg p) (hr : r.port = p) :
    Reported cfg (r :: reports) ((p,cur) :: snapshots) ↔
      ∀ c, (r.diffStats.get c).toNat = increase (lastSnapshot p snapshots) cur c := by
  constructor
  · intro hnew c
    have hc := hnew p hp c
    rw [reportedOf,increasesOf,if_pos hr,if_pos rfl,h p hp c] at hc
    exact addAmount_eq_iff.mp hc
  · intro htold q hq c
    rw [reportedOf,increasesOf,hr]
    by_cases hpq : p = q
    · subst hpq
      rw [if_pos rfl,if_pos rfl,h p hq c,htold c]
    · rw [if_neg hpq,if_neg hpq,h q hq c]

theorem bottomIncreases_cons (p : Port n) (cur : Snapshot)
    (snapshots : List (Port n × Snapshot)) :
    bottomIncreases ((p,cur) :: snapshots) =
      if cur.rxBottomOfFifoDrop = (lastSnapshot p snapshots).rxBottomOfFifoDrop then
        bottomIncreases snapshots
      else p :: bottomIncreases snapshots := by
  have h : increase (lastSnapshot p snapshots) cur .rxBottomOfFifoDrop = 0 ↔
      cur.rxBottomOfFifoDrop = (lastSnapshot p snapshots).rxBottomOfFifoDrop :=
    increase_eq_zero_iff
  rw [bottomIncreases]
  exact if_congr h rfl rfl

/-- One recovery more, or none, is what the snapshot calls for. -/
theorem recovered_iff {need : Prop} [Decidable need] {recoveries : List (Port n)}
    (h : recoveries = bottomIncreases snapshots) :
    (if need then p :: recoveries else recoveries) = bottomIncreases ((p,cur) :: snapshots) ↔
      (cur.rxBottomOfFifoDrop = (lastSnapshot p snapshots).rxBottomOfFifoDrop ↔ ¬ need) := by
  rw [bottomIncreases_cons,← h]
  split_ifs with hneed hsame hsame
  · simp [hneed,hsame]
  · simp [hneed,hsame]
  · simp [hneed,hsame]
  · simp [hneed,hsame]

end Accounts

section Analysis

variable {cfg : Config} {m m' : Monitor n} {p : Port n} {cur : Snapshot}

/-- Reports of an analysis of the counters read. -/
theorem analyze_reports (cb : Bool) :
    (analyze cb p m (some cur)).1.reports =
      if evtMask (m.monStats p) cur.widen ≠ 0 ∧ cb then
        ⟨p,evtMask (m.monStats p) cur.widen,cur.widen.sub (m.monStats p),cur⟩ :: m.reports
      else m.reports := by
  dsimp only [analyze]
  split_ifs <;> rfl

/-- Saved counters after an analysis of the counters read. -/
theorem analyze_monStats (cb : Bool) :
    (analyze cb p m (some cur)).1.monStats =
      if evtMask (m.monStats p) cur.widen ≠ 0 ∧ cb then
        update m.monStats p cur.widen
      else m.monStats := by
  dsimp only [analyze]
  split_ifs <;> rfl

/-- What an analysis of the counters read leaves in place. -/
theorem analyze_rest (cb : Bool) (p : Port n) (m : Monitor n) (cur : Snapshot) :
    (analyze cb p m (some cur)).1.snapshots = (p,cur) :: m.snapshots ∧
    (analyze cb p m (some cur)).1.recoveries = m.recoveries ∧
    (analyze cb p m (some cur)).1.waits = m.waits ∧
    (analyze cb p m (some cur)).1.recoveryMacPort = m.recoveryMacPort := by
  dsimp only [analyze]
  split_ifs <;> exact ⟨rfl,rfl,rfl,rfl⟩

/-- The analysis reports what the snapshot calls for exactly when the port
has no callback, or its saved counters are the last snapshot's and none
wrapped. -/
theorem reported_analyze_iff (hI : Inv cfg m) :
    Reported cfg (analyze (hasCb cfg p) p m (some cur)).1.reports ((p,cur) :: m.snapshots) ↔
      (hasCb cfg p → m.monStats p = (lastSnapshot p m.snapshots).widen ∧
        ∀ c, (lastSnapshot p m.snapshots).get c ≤ cur.get c) := by
  have hrep := hI.accounted.reported
  rw [analyze_reports]
  by_cases hcb : hasCb cfg p
  · have hsaved := hI.saved p hcb
    by_cases hany : evtMask (m.monStats p) cur.widen ≠ 0
    · rw [if_pos ⟨hany,hcb⟩,reported_told_iff hrep hcb rfl,diff_right_iff hsaved]
      simp [hcb]
    · rw [if_neg fun h => hany h.1,reported_silent_iff hrep,
        silence_right_iff hsaved ((evtMask_ne_zero_iff _ _).not.mp hany)]
  · rw [if_neg fun h => hcb h.2,reported_silent_iff hrep]
    simp [hcb]

/-- After a visit of a port whose counters were read, the account is right
exactly under the condition on the analysis. -/
theorem accounted_visit_iff (hI : Inv cfg m)
    (hreports : m'.reports = (analyze (hasCb cfg p) p m (some cur)).1.reports)
    (hsnapshots : m'.snapshots = (p,cur) :: m.snapshots) (hwaits : m'.waits = m.waits)
    (hrecoveries : m'.recoveries =
      if cfg.recoveryEn ∧ (m.monStats p).rxBottomOfFifoDrop < cur.rxBottomOfFifoDrop.setWidth 64
      then p :: m.recoveries else m.recoveries) :
    Accounted cfg m' ↔ AnalysisOk cfg m p cur := by
  have hrep : Reported cfg (analyze (hasCb cfg p) p m (some cur)).1.reports
      ((p,cur) :: m.snapshots) ↔ _ := reported_analyze_iff hI
  have hrec : m'.recoveries = bottomIncreases ((p,cur) :: m.snapshots) ↔
      (cur.rxBottomOfFifoDrop = (lastSnapshot p m.snapshots).rxBottomOfFifoDrop ↔
        ¬ (cfg.recoveryEn ∧
          (m.monStats p).rxBottomOfFifoDrop < cur.rxBottomOfFifoDrop.setWidth 64)) := by
    rw [hrecoveries]
    exact recovered_iff hI.accounted.recovered
  rw [← hreports,← hsnapshots] at hrep
  rw [← hsnapshots] at hrec
  constructor
  · rintro ⟨hreported,hrecovered,-⟩
    exact ⟨hrep.mp hreported,hrec.mp hrecovered⟩
  · rintro ⟨hcb,hneed⟩
    exact ⟨hrep.mpr hcb,hrec.mpr hneed,by rw [hwaits]; exact hI.accounted.awaited⟩

/-- Saved counters after a visit that lost nothing. -/
theorem saved_visit (hI : Inv cfg m) (hok : AnalysisOk cfg m p cur)
    (hmon : m'.monStats = (analyze (hasCb cfg p) p m (some cur)).1.monStats)
    (hsnapshots : m'.snapshots = (p,cur) :: m.snapshots) (q : Port n) (hq : hasCb cfg q) :
    m'.monStats q = (lastSnapshot q m'.snapshots).widen ∨ m'.monStats q = Stats.zero 64 := by
  rw [hmon,hsnapshots,analyze_monStats]
  by_cases hpq : p = q
  · subst hpq
    rw [lastSnapshot_self]
    by_cases hany : evtMask (m.monStats p) cur.widen ≠ 0
    · rw [if_pos ⟨hany,hq⟩,update_self]
      exact Or.inl rfl
    · rw [if_neg fun h => hany h.1]
      -- Nothing was reported, so no counter changed.
      have hcond := hok.1 hq
      have hzero := (silence_right_iff (hI.saved p hq)
        ((evtMask_ne_zero_iff _ _).not.mp hany)).mpr hcond
      have hsame : cur = lastSnapshot p m.snapshots :=
        stats_ext fun c => increase_eq_zero_iff.mp (hzero c)
      rw [hsame]
      exact Or.inl hcond.1
  · rw [lastSnapshot_of_ne cur _ hpq]
    have hkeep : (if evtMask (m.monStats p) cur.widen ≠ 0 ∧ hasCb cfg p then
        update m.monStats p cur.widen else m.monStats) q = m.monStats q := by
      split_ifs
      · exact update_of_ne (Ne.symm hpq) _ _
      · rfl
    rw [hkeep]
    exact hI.saved q hq

end Analysis

section Steps

variable {cfg : Config} {m m' : Monitor n} {o : Observation}

/-- The two states have read, reported, recovered and waited alike. -/
structure SameLogs (m m' : Monitor n) : Prop where
  /-- Same snapshots. -/
  snapshots : m'.snapshots = m.snapshots
  /-- Same reports. -/
  reports : m'.reports = m.reports
  /-- Same recoveries. -/
  recoveries : m'.recoveries = m.recoveries
  /-- Same waits. -/
  waits : m'.waits = m.waits

/-- What one step can do, and what the condition on it comes to. -/
inductive Moves (cfg : Config) (m : Monitor n) (o : Observation) (m' : Monitor n) : Prop where
  /-- No counters are read; the saved ones are kept or cleared. -/
  | silent (logs : SameLogs m m')
      (monStats : m'.monStats = m.monStats ∨ m'.monStats = fun _ => Stats.zero 64)
      (regular : Regular cfg m o)
  /-- A port's counters are read and analysed. -/
  | visit (p : Port n) (cur : Snapshot)
      (reports : m'.reports = (analyze (hasCb cfg p) p m (some cur)).1.reports)
      (snapshots : m'.snapshots = (p,cur) :: m.snapshots) (waits : m'.waits = m.waits)
      (recoveries : m'.recoveries =
        if cfg.recoveryEn ∧
          (m.monStats p).rxBottomOfFifoDrop < cur.rxBottomOfFifoDrop.setWidth 64
        then p :: m.recoveries else m.recoveries)
      (monStats : m'.monStats = (analyze (hasCb cfg p) p m (some cur)).1.monStats)
      (regular : Regular cfg m o ↔ AnalysisOk cfg m p cur)
  /-- A port's counters are read and saved. -/
  | save (p : Port n) (cur : Snapshot) (reports : m'.reports = m.reports)
      (snapshots : m'.snapshots = (p,cur) :: m.snapshots) (waits : m'.waits = m.waits)
      (recoveries : m'.recoveries = m.recoveries)
      (monStats : m'.monStats = update m.monStats p cur.widen)
      (regular : Regular cfg m o ↔ SaveOk cfg m p cur)
  /-- The wait for the link begins. -/
  | wait (reports : m'.reports = m.reports) (snapshots : m'.snapshots = m.snapshots)
      (waits : m'.waits = ⟨m.trigger,m.recoveryMacPort⟩ :: m.waits)
      (recoveries : m'.recoveries = m.recoveries) (monStats : m'.monStats = m.monStats)
      (phase : m.phase = .saving [])
      (regular : Regular cfg m o ↔ m.trigger ≠ .host)

/-- Recoveries after a port's verdict. -/
theorem startRecovery_logs (cfg : Config) (p : Port n) (m : Monitor n) :
    (startRecovery cfg p m).snapshots = m.snapshots ∧
    (startRecovery cfg p m).reports = m.reports ∧
    (startRecovery cfg p m).waits = m.waits ∧
    (startRecovery cfg p m).monStats = m.monStats ∧
    (startRecovery cfg p m).recoveries =
      if cfg.recoveryEn then p :: m.recoveries else m.recoveries := by
  unfold startRecovery
  split_ifs <;> exact ⟨rfl,rfl,rfl,rfl,rfl⟩

/-- A visit made from an analysis and a possible start of a recovery. -/
theorem moves_visit (p : Port n) (cur : Snapshot) {r : Monitor n × Bool} {quiet noted : Monitor n}
    (hr : r = analyze (hasCb cfg p) p m (some cur))
    (hquiet : SameLogs r.1 quiet ∧ quiet.monStats = r.1.monStats)
    (hnoted : SameLogs r.1 noted ∧ noted.monStats = r.1.monStats)
    (hregular : Regular cfg m o ↔ AnalysisOk cfg m p cur) :
    Moves cfg m o (if r.2 then startRecovery cfg p noted else quiet) := by
  obtain ⟨hsnapshots,hrecoveries,hwaits,-⟩ := analyze_rest (hasCb cfg p) p m cur
  have hneed : r.2 =
      decide ((m.monStats p).rxBottomOfFifoDrop < cur.rxBottomOfFifoDrop.setWidth 64) := by
    rw [hr]
    rfl
  rw [← hr] at hsnapshots hrecoveries hwaits
  by_cases hlt : (m.monStats p).rxBottomOfFifoDrop < cur.rxBottomOfFifoDrop.setWidth 64
  · rw [if_pos (by rw [hneed]; exact decide_eq_true hlt)]
    obtain ⟨hlogs,hmon⟩ := hnoted
    obtain ⟨hsn,hrep,hwt,hms,hrec⟩ := startRecovery_logs cfg p noted
    refine .visit p cur ?_ ?_ ?_ ?_ ?_ hregular
    · rw [hrep,hlogs.reports,hr]
    · rw [hsn,hlogs.snapshots,hsnapshots]
    · rw [hwt,hlogs.waits,hwaits]
    · rw [hrec,hlogs.recoveries,hrecoveries]
      simp [hlt]
    · rw [hms,hmon,hr]
  · rw [if_neg (by rw [hneed,decide_eq_false hlt]; exact Bool.false_ne_true)]
    obtain ⟨hlogs,hmon⟩ := hquiet
    refine .visit p cur ?_ ?_ ?_ ?_ ?_ hregular
    · rw [hlogs.reports,hr]
    · rw [hlogs.snapshots,hsnapshots]
    · rw [hlogs.waits,hwaits]
    · rw [hlogs.recoveries,hrecoveries,if_neg fun h => hlt h.2]
    · rw [hmon,hr]

/-- Every step is one of the four moves. -/
theorem step_moves (cfg : Config) (m : Monitor n) (o : Observation) :
    Moves cfg m o (step cfg m o) := by
  cases hphase : m.phase with
  | waiting =>
    simp only [step,hphase]
    cases hread : o.read with
    | none =>
      exact .silent ⟨rfl,rfl,rfl,rfl⟩ (Or.inl rfl) (by simp [Regular,hphase,hread])
    | some cur =>
      exact moves_visit .host cur rfl ⟨⟨rfl,rfl,rfl,rfl⟩,rfl⟩
        ⟨⟨rfl,rfl,rfl,rfl⟩,rfl⟩ (by simp [Regular,hphase,hread])
  | scanning rest =>
    cases rest with
    | nil =>
      simp only [step,hphase]
      exact .silent ⟨rfl,rfl,rfl,rfl⟩ (Or.inl rfl) (by simp [Regular,hphase])
    | cons i rest =>
      simp only [step,hphase]
      by_cases hlink : o.linkUp
      · rw [if_pos hlink]
        cases hread : o.read with
        | none =>
          exact .silent ⟨rfl,rfl,rfl,rfl⟩ (Or.inl rfl) (by simp [Regular,hphase,hread])
        | some cur =>
          exact moves_visit (.mac i) cur rfl ⟨⟨rfl,rfl,rfl,rfl⟩,rfl⟩
            ⟨⟨rfl,rfl,rfl,rfl⟩,rfl⟩ (by simp [Regular,hphase,hread,hlink])
      · rw [if_neg hlink]
        exact .silent ⟨rfl,rfl,rfl,rfl⟩ (Or.inl rfl) (by simp [Regular,hphase,hlink])
  | teardown =>
    simp only [step,hphase]
    have hregular : Regular cfg m o := by simp [Regular,hphase]
    split_ifs
    · exact .silent ⟨rfl,rfl,rfl,rfl⟩ (Or.inr rfl) hregular
    · exact .silent ⟨rfl,rfl,rfl,rfl⟩ (Or.inl rfl) hregular
  | saving rest =>
    cases rest with
    | nil =>
      simp only [step,hphase]
      by_cases hok : o.resetOk
      · rw [if_pos hok]
        exact .wait rfl rfl rfl rfl rfl hphase (by simp [Regular,hphase,hok])
      · rw [if_neg hok]
        exact .silent ⟨rfl,rfl,rfl,rfl⟩ (Or.inl rfl) (by simp [Regular,hphase,hok])
    | cons p rest =>
      simp only [step,hphase]
      cases hread : o.read with
      | none => exact .silent ⟨rfl,rfl,rfl,rfl⟩ (Or.inl rfl) (by simp [Regular,hphase,hread])
      | some cur => exact .save p cur rfl rfl rfl rfl rfl (by simp [Regular,hphase,hread])
  | linkWait =>
    simp only [step,hphase]
    have hregular : Regular cfg m o := by simp [Regular,hphase]
    split_ifs
    · exact .silent ⟨rfl,rfl,rfl,rfl⟩ (Or.inl rfl) hregular
    · exact .silent ⟨rfl,rfl,rfl,rfl⟩ (Or.inl rfl) hregular

/-- Saving counters keeps the account exactly when it loses none. -/
theorem accounted_save_iff {p : Port n} {cur : Snapshot} (hI : Inv cfg m)
    (hreports : m'.reports = m.reports) (hsnapshots : m'.snapshots = (p,cur) :: m.snapshots)
    (hwaits : m'.waits = m.waits) (hrecoveries : m'.recoveries = m.recoveries) :
    Accounted cfg m' ↔ SaveOk cfg m p cur := by
  have hrep : Reported cfg m.reports ((p,cur) :: m.snapshots) ↔ _ :=
    reported_silent_iff hI.accounted.reported
  have hrec : m'.recoveries = bottomIncreases ((p,cur) :: m.snapshots) ↔
      (cur.rxBottomOfFifoDrop = (lastSnapshot p m.snapshots).rxBottomOfFifoDrop ↔ ¬ False) := by
    rw [hrecoveries,← recovered_iff hI.accounted.recovered,if_neg not_false]
  rw [← hreports,← hsnapshots] at hrep
  rw [← hsnapshots] at hrec
  simp only [increase_eq_zero_iff] at hrep
  constructor
  · rintro ⟨hreported,hrecovered,-⟩
    exact ⟨hrep.mp hreported,(hrec.mp hrecovered).mpr not_false⟩
  · rintro ⟨hcb,hbottom⟩
    exact ⟨hrep.mpr hcb,hrec.mpr (iff_of_true hbottom not_false),
      by rw [hwaits]; exact hI.accounted.awaited⟩

/-- The wait that a recovery ends with is right exactly when a MAC port
triggered the recovery. -/
theorem rightWait_iff (hI : Inv cfg m) (hphase : m.phase = .saving []) :
    RightWait ⟨m.trigger,m.recoveryMacPort⟩ m.waits ↔ m.trigger ≠ .host := by
  have htarget := hI.target
  unfold TargetOk at htarget
  rw [hphase] at htarget
  unfold RightWait
  cases htrigger : m.trigger with
  | mac i =>
    rw [htrigger] at htarget
    exact iff_of_true htarget (by simp)
  | host =>
    rw [htrigger] at htarget
    refine iff_of_false ?_ (fun h => h rfl)
    rintro ⟨hinv,hearlier⟩
    rcases htarget with h | h
    · exact hinv h
    · exact hearlier h

theorem accounted_congr (h : SameLogs m m') : Accounted cfg m' ↔ Accounted cfg m := by
  constructor
  · rintro ⟨hreported,hrecovered,hawaited⟩
    rw [h.reports,h.snapshots] at hreported
    rw [h.recoveries,h.snapshots] at hrecovered
    rw [h.waits] at hawaited
    exact ⟨hreported,hrecovered,hawaited⟩
  · rintro ⟨hreported,hrecovered,hawaited⟩
    rw [← h.reports,← h.snapshots] at hreported
    rw [← h.recoveries,← h.snapshots] at hrecovered
    rw [← h.waits] at hawaited
    exact ⟨hreported,hrecovered,hawaited⟩

/-- One step keeps the account exactly under its condition. -/
theorem accounted_step_iff (hI : Inv cfg m) (o : Observation) :
    Accounted cfg (step cfg m o) ↔ Regular cfg m o := by
  cases step_moves cfg m o with
  | silent logs monStats regular =>
    exact iff_of_true ((accounted_congr logs).mpr hI.accounted) regular
  | visit p cur reports snapshots waits recoveries monStats regular =>
    exact (accounted_visit_iff hI reports snapshots waits recoveries).trans regular.symm
  | save p cur reports snapshots waits recoveries monStats regular =>
    exact (accounted_save_iff hI reports snapshots waits recoveries).trans regular.symm
  | wait reports snapshots waits recoveries monStats phase regular =>
    rw [regular,← rightWait_iff hI phase]
    constructor
    · rintro ⟨-,-,hawaited⟩
      rw [waits] at hawaited
      exact hawaited.1
    · intro hright
      obtain ⟨hreported,hrecovered,hawaited⟩ := hI.accounted
      rw [← reports,← snapshots] at hreported
      rw [← recoveries,← snapshots] at hrecovered
      exact ⟨hreported,hrecovered,by rw [waits]; exact ⟨hright,hawaited⟩⟩

/-- What the analysis leaves in place of the target. -/
theorem leftover_analyze {p : Port n} (cb : Bool) (read : Option Snapshot) (h : Leftover m) :
    Leftover (analyze cb p m read).1 := by
  cases read with
  | none => exact h
  | some cur =>
    obtain ⟨-,-,hwaits,hport⟩ := analyze_rest cb p m cur
    unfold Leftover
    rw [hwaits,hport]
    exact h

/-- A recovery that starts waits for the port that triggered it, or for one
left over. -/
theorem targetOk_startRecovery {p : Port n}
    (h : match p with
      | .mac i => m.recoveryMacPort = .port i
      | .host => cfg.recoveryEn → Leftover m) :
    TargetOk cfg (startRecovery cfg p m) := by
  unfold startRecovery
  by_cases hen : cfg.recoveryEn
  · rw [if_pos hen]
    cases p with
    | mac i => exact h
    | host => exact h hen
  · rw [if_neg hen]
    exact fun h => absurd h hen

/-- The port to wait for stays right under every step. -/
theorem targetOk_step (h : TargetOk cfg m) (o : Observation) : TargetOk cfg (step cfg m o) := by
  unfold TargetOk at h
  cases hphase : m.phase with
  | waiting =>
    rw [hphase] at h
    simp only [step,hphase]
    split_ifs
    · exact targetOk_startRecovery fun hen => leftover_analyze _ _ (h hen)
    · exact fun hen => leftover_analyze _ _ (h hen)
  | scanning rest =>
    rw [hphase] at h
    cases rest with
    | nil =>
      simp only [step,hphase]
      exact h
    | cons i rest =>
      simp only [step,hphase]
      split_ifs
      · exact targetOk_startRecovery rfl
      · exact fun hen => leftover_analyze _ _ (h hen)
      · exact h
  | teardown =>
    rw [hphase] at h
    simp only [step,hphase]
    split_ifs
    · exact h
    · unfold TargetOk
      rw [hphase]
      exact h
  | saving rest =>
    rw [hphase] at h
    cases rest with
    | nil =>
      simp only [step,hphase]
      split_ifs
      · exact fun _ => Or.inr (List.mem_map.mpr ⟨_,List.mem_cons_self,rfl⟩)
      · unfold TargetOk
        rw [hphase]
        exact h
    | cons p rest =>
      simp only [step,hphase]
      cases o.read <;> exact h
  | linkWait =>
    rw [hphase] at h
    simp only [step,hphase]
    split_ifs
    · exact h
    · unfold TargetOk
      rw [hphase]
      exact h

theorem inv_step (hI : Inv cfg m) (hregular : Regular cfg m o) : Inv cfg (step cfg m o) := by
  refine ⟨(accounted_step_iff hI o).mpr hregular,?_,targetOk_step hI.target o⟩
  intro q hq
  cases step_moves cfg m o with
  | silent logs monStats regular =>
    rw [logs.snapshots]
    rcases monStats with hmon | hmon
    · rw [hmon]
      exact hI.saved q hq
    · rw [hmon]
      exact Or.inr rfl
  | visit p cur reports snapshots waits recoveries monStats regular =>
    exact saved_visit hI (regular.mp hregular) monStats snapshots q hq
  | save p cur reports snapshots waits recoveries monStats regular =>
    rw [monStats,snapshots]
    by_cases hpq : p = q
    · subst hpq
      rw [update_self,lastSnapshot_self]
      exact Or.inl rfl
    · rw [update_of_ne (Ne.symm hpq),lastSnapshot_of_ne cur _ hpq]
      exact hI.saved q hq
  | wait reports snapshots waits recoveries monStats phase regular =>
    rw [monStats,snapshots]
    exact hI.saved q hq

theorem inv_start (cfg : Config) : Inv cfg (start n) :=
  ⟨⟨fun _ _ _ => rfl,rfl,trivial⟩,fun _ _ => Or.inr rfl,fun _ => Or.inl rfl⟩

end Steps

/-- Counters with one frame dropped at the bottom of the FIFO. -/
def oneDrop : Snapshot := ⟨1,0,fun _ => 0⟩

/-- The host port drops a frame; the recovery runs to its link wait. -/
def hostDrop : List Observation :=
  [⟨some oneDrop,true,true,true⟩,⟨none,true,true,true⟩,⟨some oneDrop,true,true,true⟩,
    ⟨some (Stats.zero 32),true,true,true⟩,⟨none,true,true,true⟩]

end EthernetFirmware.MonitorAccounting
