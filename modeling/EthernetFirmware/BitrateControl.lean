import EthernetFirmware.GuardedRuns
import EthernetFirmware.RemoteConfig
import EthernetFirmware.TokenBuckets
import Mathlib.Data.List.Chain

/-!
# Rate control of the talker

A talker holds back frames with a bucket of tokens. A call of
`EthFwEstDemo_checkTransmitReady` first adds what the time since the last
call has earned, in 32 bits, then takes the tokens of a frame or tells how
long to sleep. A sleep time that rounds to zero admits the frame without
the tokens.
-/

namespace EthernetFirmware.BitrateControl

open RemoteConfig GuardedRuns TokenBuckets

/-- `EstDemoBitrateCtrl`. -/
structure BitrateCtrl where
  /-- Maximum bytes of the bucket. -/
  maxCapacity : U32
  /-- Bits per second. -/
  bitRate : BitVec 64
  /-- Available tokens in bytes. -/
  tokens : U32
  /-- Time of the last call; zero before the first. -/
  lastTs : BitVec 64
  /-- Nothing is divided by zero. -/
  bitRate_pos : 0 < bitRate.toNat

/-- `EthFwEstDemo_initEthFwEstDemo_BitrateCtrl`. -/
def initBitrateCtrl (maxCapacity : U32) (bitRate : BitVec 64) (h : 0 < bitRate.toNat) :
    BitrateCtrl :=
  ⟨maxCapacity,bitRate,maxCapacity,0,h⟩

/-- `EthFwEstDemo_updateTokensForBitrateCtrl` at the current time. -/
def updateTokensForBitrateCtrl (curTs : BitVec 64) (bc : BitrateCtrl) : BitrateCtrl :=
  if bc.lastTs = 0 then { bc with lastTs := curTs }
  else
    let delta := if bc.lastTs < curTs then curTs - bc.lastTs else 0
    if 0 < delta then
      let tokens := bc.bitRate * delta / 1000000
      let sum := bc.tokens + (tokens / 8).setWidth 32
      { bc with tokens := if bc.maxCapacity < sum then bc.maxCapacity else sum, lastTs := curTs }
    else { bc with lastTs := curTs }

/-- What `EthFwEstDemo_checkTransmitReady` leaves and answers. -/
structure Answer where
  /-- The bucket. -/
  bc : BitrateCtrl
  /-- Result; a frame is admitted when true. -/
  res : Bool
  /-- `*sleepTimeUs`. -/
  sleepTimeUs : BitVec 64

/-- `EthFwEstDemo_checkTransmitReady` at the current time. -/
def checkTransmitReady (curTs : BitVec 64) (bytes : U32) (bc : BitrateCtrl) : Answer :=
  let bc := updateTokensForBitrateCtrl curTs bc
  if bytes ≤ bc.tokens then ⟨{ bc with tokens := bc.tokens - bytes },true,0⟩
  else
    let tokens := (bytes - bc.tokens).setWidth 64
    let sleepTimeUs := tokens * 8 * 1000000 / bc.bitRate
    if sleepTimeUs = 0 then ⟨{ bc with tokens := 0 },true,sleepTimeUs⟩
    else ⟨bc,false,sleepTimeUs⟩

/-- A call: the time read and the frame size. -/
structure Call where
  /-- `EthFwEstDemo_getCurrentTimeUs`. -/
  time : BitVec 64
  /-- Size of the frame. -/
  bytes : U32

/-- A call that was made. -/
structure Record where
  /-- The call. -/
  call : Call
  /-- The bucket it found. -/
  before : BitrateCtrl
  /-- The bucket after the update of the tokens. -/
  updated : BitrateCtrl
  /-- Result. -/
  res : Bool
  /-- Sleep time. -/
  sleepTimeUs : BitVec 64

/-- The bucket and the calls made on it. -/
structure State where
  /-- The bucket. -/
  bc : BitrateCtrl
  /-- The calls, in order. -/
  history : List Record

/-- A call, recorded. -/
def step (s : State) (c : Call) : State :=
  let answer := checkTransmitReady c.time c.bytes s.bc
  ⟨answer.bc,s.history ++
    [⟨c,s.bc,updateTokensForBitrateCtrl c.time s.bc,answer.res,answer.sleepTimeUs⟩]⟩

/-- A new bucket. -/
def start (maxCapacity : U32) (bitRate : BitVec 64) (h : 0 < bitRate.toNat) : State :=
  ⟨initBitrateCtrl maxCapacity bitRate h,[]⟩

/-- Microseconds and bits of a second and a byte. -/
abbrev perByte : ℕ := 8000000

theorem perByte_pos : 0 < perByte := Nat.succ_pos _

/-- Whole tokens earned since the last call. -/
def earned (bc : BitrateCtrl) (time : BitVec 64) : ℕ :=
  if bc.lastTs = 0 then 0
  else bc.bitRate.toNat * (time.toNat - bc.lastTs.toNat) / perByte

/-- The exact sum of the update. -/
def exactSum (bc : BitrateCtrl) (time : BitVec 64) : ℕ := bc.tokens.toNat + earned bc time

/-- The exact tokens after the update. -/
def exactLevel (bc : BitrateCtrl) (time : BitVec 64) : ℕ :=
  min bc.maxCapacity.toNat (exactSum bc time)

/-- What a call spends: the size of an admitted frame. -/
def Record.use (r : Record) : Use :=
  ⟨r.call.time.toNat,if r.res then r.call.bytes.toNat else 0⟩

/-- The update of a call lost nothing. -/
def UpdateExact (r : Record) : Prop :=
  r.updated.tokens.toNat = exactLevel r.before r.call.time

/-- A frame that was refused and is retried after its sleep time or later is
admitted. -/
def RetryAdmitted (refused retried : Record) : Prop :=
  refused.res = false → retried.call.bytes = refused.call.bytes →
    refused.call.time.toNat + refused.sleepTimeUs.toNat ≤ retried.call.time.toNat →
    retried.res = true

/-- The calls made so far conform to the bucket. -/
structure Conformant (s : State) : Prop where
  /-- The tokens stay within the capacity. -/
  tokens : s.bc.tokens.toNat ≤ s.bc.maxCapacity.toNat
  /-- They do so after each update, which loses nothing. -/
  updates : ∀ r ∈ s.history, UpdateExact r
  /-- What is admitted from one call to another is bounded. -/
  windows : Conforms perByte s.bc.maxCapacity.toNat s.bc.bitRate.toNat (s.history.map Record.use)
  /-- Retries are admitted. -/
  retries : s.history.IsChain RetryAdmitted

/-- The calls considered: times are not zero and do not decrease, their
steps do not overflow, frames fit the bucket. -/
structure Allowed (s : State) (c : Call) : Prop where
  /-- The time is not zero. -/
  time : 0 < c.time.toNat
  /-- It does not decrease. -/
  ordered : s.bc.lastTs.toNat ≤ c.time.toNat
  /-- The step times the rate fits 64 bits. -/
  bits : s.bc.lastTs ≠ 0 → s.bc.bitRate.toNat * (c.time.toNat - s.bc.lastTs.toNat) < 2 ^ 64
  /-- The frame fits the bucket. -/
  bytes : c.bytes.toNat ≤ s.bc.maxCapacity.toNat

/-- The condition on a call in the state before it. -/
structure Covered (s : State) (c : Call) : Prop where
  /-- The sum fits 32 bits, or what is left of it still fills the bucket. -/
  sum : exactSum s.bc c.time < 2 ^ 32 ∨
    s.bc.maxCapacity.toNat ≤ exactSum s.bc c.time % 2 ^ 32
  /-- The tokens suffice, or a microsecond earns no more than is missing. -/
  missing : c.bytes.toNat ≤ exactLevel s.bc c.time ∨
    s.bc.bitRate.toNat ≤ perByte * (c.bytes.toNat - exactLevel s.bc c.time)
  /-- The frame refused by the last call is not retried in the microsecond in
  which its tokens become complete. -/
  retry : ∀ r ∈ s.history.getLast?, r.res = false → c.bytes = r.call.bytes →
    ¬ (s.bc.bitRate.toNat * (c.time.toNat - s.bc.lastTs.toNat) <
        perByte * (c.bytes.toNat - s.bc.tokens.toNat) ∧
      perByte * (c.bytes.toNat - s.bc.tokens.toNat) <
        s.bc.bitRate.toNat * (c.time.toNat - s.bc.lastTs.toNat + 1))

section Words

theorem toNat_million : (1000000 : BitVec 64).toNat = 1000000 := rfl

theorem toNat_eight : (8 : BitVec 64).toNat = 8 := rfl

end Words

section Update

variable {bc : BitrateCtrl} {curTs : BitVec 64}

@[simp] theorem lastTs_update (curTs : BitVec 64) (bc : BitrateCtrl) :
    (updateTokensForBitrateCtrl curTs bc).lastTs = curTs := by
  unfold updateTokensForBitrateCtrl
  dsimp only
  split_ifs <;> rfl

@[simp] theorem maxCapacity_update (curTs : BitVec 64) (bc : BitrateCtrl) :
    (updateTokensForBitrateCtrl curTs bc).maxCapacity = bc.maxCapacity := by
  unfold updateTokensForBitrateCtrl
  dsimp only
  split_ifs <;> rfl

@[simp] theorem bitRate_update (curTs : BitVec 64) (bc : BitrateCtrl) :
    (updateTokensForBitrateCtrl curTs bc).bitRate = bc.bitRate := by
  unfold updateTokensForBitrateCtrl
  dsimp only
  split_ifs <;> rfl

/-- The two divisions are one. -/
theorem toNat_earned {rate delta : BitVec 64} (h : rate.toNat * delta.toNat < 2 ^ 64) :
    (rate * delta / 1000000 / 8).toNat = rate.toNat * delta.toNat / perByte := by
  rw [BitVec.toNat_udiv,BitVec.toNat_udiv,BitVec.toNat_mul,Nat.mod_eq_of_lt h,toNat_million,
    toNat_eight,Nat.div_div_eq_div_mul]

/-- The 32-bit sum of the update. -/
theorem toNat_sum {delta : BitVec 64} (h : bc.bitRate.toNat * delta.toNat < 2 ^ 64) :
    (bc.tokens + (bc.bitRate * delta / 1000000 / 8).setWidth 32).toNat =
      (bc.tokens.toNat + bc.bitRate.toNat * delta.toNat / perByte) % 2 ^ 32 := by
  rw [BitVec.toNat_add,BitVec.toNat_setWidth,toNat_earned h,Nat.add_mod_mod]

/-- The clamp of the update. -/
theorem toNat_clamp (capacity sum : U32) :
    (if capacity < sum then capacity else sum).toNat = min capacity.toNat sum.toNat := by
  split_ifs with hover
  · rw [BitVec.lt_def] at hover
    omega
  · rw [BitVec.lt_def] at hover
    omega

/-- The tokens after the update: the sum in 32 bits, at most the capacity. -/
theorem tokens_update (htokens : bc.tokens.toNat ≤ bc.maxCapacity.toNat)
    (hordered : bc.lastTs.toNat ≤ curTs.toNat)
    (hbits : bc.lastTs ≠ 0 → bc.bitRate.toNat * (curTs.toNat - bc.lastTs.toNat) < 2 ^ 64) :
    (updateTokensForBitrateCtrl curTs bc).tokens.toNat =
      min bc.maxCapacity.toNat (exactSum bc curTs % 2 ^ 32) := by
  have hlt := bc.tokens.isLt
  unfold updateTokensForBitrateCtrl exactSum earned
  by_cases hfirst : bc.lastTs = 0
  · rw [if_pos hfirst,if_pos hfirst]
    dsimp only
    omega
  rw [if_neg hfirst,if_neg hfirst]
  dsimp only
  by_cases hlater : bc.lastTs < curTs
  · have hdelta : (curTs - bc.lastTs).toNat = curTs.toNat - bc.lastTs.toNat :=
      BitVec.toNat_sub_of_le (BitVec.le_def.mpr hordered)
    have hbits := hbits hfirst
    rw [← hdelta] at hbits ⊢
    have hpos : 0 < curTs - bc.lastTs := by
      rw [BitVec.lt_def] at hlater ⊢
      rw [hdelta]
      change 0 < _
      omega
    rw [if_pos hlater,if_pos hpos,← toNat_sum hbits]
    exact toNat_clamp _ _
  · have hsame : curTs.toNat - bc.lastTs.toNat = 0 := by
      rw [BitVec.lt_def] at hlater
      omega
    have hzero : ¬ (0 : BitVec 64) < 0 := by
      rw [BitVec.lt_def]
      exact Nat.lt_irrefl _
    rw [if_neg hlater,if_neg hzero,hsame,Nat.mul_zero,Nat.zero_div]
    dsimp only
    omega

/-- The update loses nothing exactly when the sum fits 32 bits or what is
left of it still fills the bucket. -/
theorem update_exact_iff (htokens : bc.tokens.toNat ≤ bc.maxCapacity.toNat)
    (hordered : bc.lastTs.toNat ≤ curTs.toNat)
    (hbits : bc.lastTs ≠ 0 → bc.bitRate.toNat * (curTs.toNat - bc.lastTs.toNat) < 2 ^ 64) :
    (updateTokensForBitrateCtrl curTs bc).tokens.toNat = exactLevel bc curTs ↔
      (exactSum bc curTs < 2 ^ 32 ∨ bc.maxCapacity.toNat ≤ exactSum bc curTs % 2 ^ 32) := by
  have hcapacity := bc.maxCapacity.isLt
  rw [tokens_update htokens hordered hbits]
  unfold exactLevel
  omega

end Update

section Answers

variable {u bc : BitrateCtrl} {bytes : U32} {answer : Answer} {curTs : BitVec 64}

/-- What a call can answer from the updated bucket. -/
inductive Outcome (u : BitrateCtrl) (bytes : U32) : Answer → Prop
  | admitted : bytes.toNat ≤ u.tokens.toNat →
      Outcome u bytes ⟨{ u with tokens := u.tokens - bytes },true,0⟩
  | unfunded : u.tokens.toNat < bytes.toNat →
      perByte * (bytes.toNat - u.tokens.toNat) < u.bitRate.toNat →
      Outcome u bytes ⟨{ u with tokens := 0 },true,0⟩
  | refused (s : BitVec 64) : u.tokens.toNat < bytes.toNat →
      u.bitRate.toNat ≤ perByte * (bytes.toNat - u.tokens.toNat) →
      s.toNat = perByte * (bytes.toNat - u.tokens.toNat) / u.bitRate.toNat →
      Outcome u bytes ⟨u,false,s⟩

/-- The sleep time does not overflow. -/
theorem toNat_sleepTimeUs (hmissing : u.tokens.toNat < bytes.toNat) :
    ((bytes - u.tokens).setWidth 64 * 8 * 1000000 / u.bitRate).toNat =
      perByte * (bytes.toNat - u.tokens.toNat) / u.bitRate.toNat := by
  have hlt := bytes.isLt
  have hsub : (bytes - u.tokens).toNat = bytes.toNat - u.tokens.toNat :=
    BitVec.toNat_sub_of_le (BitVec.le_def.mpr (Nat.le_of_lt hmissing))
  have hwide : ((bytes - u.tokens).setWidth 64).toNat = bytes.toNat - u.tokens.toNat := by
    rw [BitVec.toNat_setWidth,hsub,Nat.mod_eq_of_lt (by omega)]
  rw [BitVec.toNat_udiv,BitVec.toNat_mul,BitVec.toNat_mul,hwide,toNat_million,toNat_eight,
    Nat.mod_eq_of_lt (by omega : (bytes.toNat - u.tokens.toNat) * 8 < 2 ^ 64),
    Nat.mod_eq_of_lt (by omega),Nat.mul_assoc,Nat.mul_comm]

theorem checkTransmitReady_outcome (curTs : BitVec 64) (bytes : U32) (bc : BitrateCtrl) :
    Outcome (updateTokensForBitrateCtrl curTs bc) bytes (checkTransmitReady curTs bytes bc) := by
  unfold checkTransmitReady
  dsimp only
  generalize updateTokensForBitrateCtrl curTs bc = u
  have hpos := u.bitRate_pos
  split_ifs with hready hzero
  · exact Outcome.admitted hready
  · have hmissing : u.tokens.toNat < bytes.toNat := Nat.lt_of_not_le hready
    have hsleep := toNat_sleepTimeUs hmissing
    rw [hzero] at hsleep ⊢
    refine Outcome.unfunded hmissing ?_
    exact (Nat.div_eq_zero_iff_lt hpos).mp hsleep.symm
  · have hmissing : u.tokens.toNat < bytes.toNat := Nat.lt_of_not_le hready
    have hsleep := toNat_sleepTimeUs hmissing
    refine Outcome.refused _ hmissing ?_ hsleep
    refine Nat.le_of_not_lt fun hlt => hzero (BitVec.eq_of_toNat_eq ?_)
    rw [hsleep,Nat.div_eq_of_lt hlt]
    rfl

/-- A call changes the tokens alone, besides the update. -/
theorem Outcome.frame (h : Outcome u bytes answer) :
    answer.bc.maxCapacity = u.maxCapacity ∧ answer.bc.bitRate = u.bitRate ∧
      answer.bc.lastTs = u.lastTs := by
  cases h <;> exact ⟨rfl,rfl,rfl⟩

/-- An answer that does not admit without tokens spends no more than there is. -/
theorem Outcome.spent_le (h : Outcome u bytes answer)
    (hfunded : bytes.toNat ≤ u.tokens.toNat ∨
      u.bitRate.toNat ≤ perByte * (bytes.toNat - u.tokens.toNat)) :
    (if answer.res then bytes.toNat else 0) + answer.bc.tokens.toNat ≤ u.tokens.toNat := by
  cases h with
  | admitted hle =>
    have hsub : (u.tokens - bytes).toNat = u.tokens.toNat - bytes.toNat :=
      BitVec.toNat_sub_of_le (BitVec.le_def.mpr hle)
    rw [if_pos rfl,hsub]
    omega
  | unfunded hmissing hlt => omega
  | refused s hmissing hle hs =>
    rw [if_neg Bool.false_ne_true]
    exact Nat.le_of_eq (Nat.zero_add _)

/-- A call is admitted where the updated tokens suffice. -/
theorem Outcome.res_of_le (h : Outcome u bytes answer) (hle : bytes.toNat ≤ u.tokens.toNat) :
    answer.res = true := by
  cases h with
  | admitted => rfl
  | unfunded => rfl
  | refused s hmissing => omega

/-- A refused frame leaves the updated bucket and a sleep time. -/
theorem Outcome.of_refused (h : Outcome u bytes answer) (hrefused : answer.res = false) :
    answer.bc = u ∧ u.tokens.toNat < bytes.toNat ∧ answer.sleepTimeUs.toNat =
      perByte * (bytes.toNat - u.tokens.toNat) / u.bitRate.toNat := by
  cases h with
  | admitted => cases hrefused
  | unfunded => cases hrefused
  | refused s hmissing hle hsleep => exact ⟨rfl,hmissing,hsleep⟩

end Answers

section Runs

variable {s : State} {c : Call}

/-- The invariant of conforming runs. -/
structure Kept (s : State) : Prop where
  /-- The calls conform. -/
  conformant : Conformant s
  /-- The windows that reach the last call are funded. -/
  funded : Funded perByte s.bc.maxCapacity.toNat s.bc.bitRate.toNat (s.history.map Record.use)
    s.bc.tokens.toNat s.bc.lastTs.toNat
  /-- Before the first call the time is zero. -/
  first : s.bc.lastTs = 0 → s.history = []
  /-- The last call set the time, and told how long to sleep. -/
  last : ∀ r ∈ s.history.getLast?, r.call.time = s.bc.lastTs ∧
    (r.res = false → s.bc.tokens.toNat < r.call.bytes.toNat ∧ r.sleepTimeUs.toNat =
      perByte * (r.call.bytes.toNat - s.bc.tokens.toNat) / s.bc.bitRate.toNat)

/-- The record of a call. -/
def recordOf (s : State) (c : Call) : Record :=
  ⟨c,s.bc,updateTokensForBitrateCtrl c.time s.bc,(checkTransmitReady c.time c.bytes s.bc).res,
    (checkTransmitReady c.time c.bytes s.bc).sleepTimeUs⟩

theorem step_history (s : State) (c : Call) :
    (step s c).history = s.history ++ [recordOf s c] := rfl

theorem step_bc (s : State) (c : Call) :
    (step s c).bc = (checkTransmitReady c.time c.bytes s.bc).bc := rfl

theorem step_frame (s : State) (c : Call) :
    (step s c).bc.maxCapacity = s.bc.maxCapacity ∧ (step s c).bc.bitRate = s.bc.bitRate ∧
      (step s c).bc.lastTs = c.time := by
  have hframe := (checkTransmitReady_outcome c.time c.bytes s.bc).frame
  rw [maxCapacity_update,bitRate_update,lastTs_update] at hframe
  exact hframe

/-- Under the condition the update is exact. -/
theorem update_exact (hkept : Kept s) (hallowed : Allowed s c) (hcovered : Covered s c) :
    (updateTokensForBitrateCtrl c.time s.bc).tokens.toNat = exactLevel s.bc c.time :=
  (update_exact_iff hkept.conformant.tokens hallowed.ordered hallowed.bits).mpr hcovered.sum

/-- The windows before a call are funded up to its update. -/
theorem funded_update (hkept : Kept s) (hallowed : Allowed s c) (hcovered : Covered s c) :
    Funded perByte s.bc.maxCapacity.toNat s.bc.bitRate.toNat (s.history.map Record.use)
      (updateTokensForBitrateCtrl c.time s.bc).tokens.toNat c.time.toNat := by
  refine funded_refill hkept.funded hallowed.ordered ?_
  rw [update_exact hkept hallowed hcovered]
  have hearned : perByte * earned s.bc c.time ≤
      s.bc.bitRate.toNat * (c.time.toNat - s.bc.lastTs.toNat) := by
    unfold earned
    split_ifs with hfirst
    · exact Nat.zero_le _
    · exact Nat.mul_div_le _ _
  have hlevel : exactLevel s.bc c.time ≤ s.bc.tokens.toNat + earned s.bc c.time :=
    Nat.min_le_right _ _
  calc perByte * exactLevel s.bc c.time
      ≤ perByte * (s.bc.tokens.toNat + earned s.bc c.time) := Nat.mul_le_mul_left _ hlevel
    _ = perByte * s.bc.tokens.toNat + perByte * earned s.bc c.time := Nat.mul_add _ _ _
    _ ≤ _ := Nat.add_le_add_left hearned _

/-- The tokens spent and left come from the update. -/
theorem spent_step_le (hkept : Kept s) (hallowed : Allowed s c) (hcovered : Covered s c) :
    (recordOf s c).use.spent + (step s c).bc.tokens.toNat ≤
      (updateTokensForBitrateCtrl c.time s.bc).tokens.toNat := by
  refine (checkTransmitReady_outcome c.time c.bytes s.bc).spent_le ?_
  rw [bitRate_update,update_exact hkept hallowed hcovered]
  exact hcovered.missing

/-- After its sleep time, and outside of the microsecond excepted, the
tokens of a refused frame are earned. -/
theorem missing_le_earned {rate missing passed : ℕ} (hpos : 0 < rate)
    (hslept : perByte * missing / rate ≤ passed)
    (houtside : ¬ (rate * passed < perByte * missing ∧ perByte * missing < rate * (passed + 1))) :
    missing ≤ rate * passed / perByte := by
  have hlate : perByte * missing < rate * (passed + 1) := by
    rw [Nat.mul_comm rate]
    exact (Nat.div_lt_iff_lt_mul hpos).mp (Nat.lt_succ_of_le hslept)
  have hreached : perByte * missing ≤ rate * passed :=
    Nat.le_of_not_lt fun hearly => houtside ⟨hearly,hlate⟩
  rw [Nat.mul_comm] at hreached
  exact (Nat.le_div_iff_mul_le perByte_pos).mpr hreached

/-- A retry of the last call is admitted. -/
theorem retryAdmitted_last (hkept : Kept s) (hallowed : Allowed s c) (hcovered : Covered s c)
    {r : Record} (hr : r ∈ s.history.getLast?) : RetryAdmitted r (recordOf s c) := by
  intro hrefused hbytes hslept
  obtain ⟨htime,hlast⟩ := hkept.last r hr
  obtain ⟨hmissing,hsleep⟩ := hlast hrefused
  have hbytes : c.bytes = r.call.bytes := hbytes
  have hslept : r.call.time.toNat + r.sleepTimeUs.toNat ≤ c.time.toNat := hslept
  have hstarted : s.bc.lastTs ≠ 0 := by
    intro hzero
    rw [hkept.first hzero] at hr
    cases hr
  rw [htime,hsleep,← hbytes] at hslept
  rw [← hbytes] at hmissing
  have hearned : c.bytes.toNat - s.bc.tokens.toNat ≤ earned s.bc c.time := by
    unfold earned
    rw [if_neg hstarted]
    exact missing_le_earned s.bc.bitRate_pos (by omega) (hcovered.retry r hr hrefused hbytes)
  refine (checkTransmitReady_outcome c.time c.bytes s.bc).res_of_le ?_
  rw [update_exact hkept hallowed hcovered]
  refine Nat.le_min.mpr ⟨hallowed.bytes,?_⟩
  unfold exactSum
  omega

/-- In the microsecond excepted the retry is refused again. -/
theorem retry_refused (hkept : Kept s) {r : Record} (hr : r ∈ s.history.getLast?)
    (hearly : s.bc.bitRate.toNat * (c.time.toNat - s.bc.lastTs.toNat) <
      perByte * (c.bytes.toNat - s.bc.tokens.toNat))
    (hmissing : c.bytes.toNat ≤ exactLevel s.bc c.time ∨
      s.bc.bitRate.toNat ≤ perByte * (c.bytes.toNat - exactLevel s.bc c.time))
    (hexact : (updateTokensForBitrateCtrl c.time s.bc).tokens.toNat = exactLevel s.bc c.time) :
    (recordOf s c).res = false := by
  have hearned : earned s.bc c.time < c.bytes.toNat - s.bc.tokens.toNat := by
    unfold earned
    split_ifs with hfirst
    · rw [hkept.first hfirst] at hr
      cases hr
    · rw [Nat.mul_comm perByte] at hearly
      exact (Nat.div_lt_iff_lt_mul perByte_pos).mpr hearly
  have hlevel : exactLevel s.bc c.time < c.bytes.toNat := by
    have hsum : exactLevel s.bc c.time ≤ s.bc.tokens.toNat + earned s.bc c.time :=
      Nat.min_le_right _ _
    omega
  have houtcome := checkTransmitReady_outcome c.time c.bytes s.bc
  change (checkTransmitReady c.time c.bytes s.bc).res = false
  generalize hanswer : checkTransmitReady c.time c.bytes s.bc = answer at houtcome
  cases houtcome with
  | admitted hle => omega
  | unfunded _ hlt =>
    rw [bitRate_update,hexact] at hlt
    omega
  | refused => rfl

/-- A call that meets the condition keeps the invariant. -/
theorem kept_step (hkept : Kept s) (hallowed : Allowed s c) (hcovered : Covered s c) :
    Kept (step s c) := by
  obtain ⟨hcapacity,hrate,htime⟩ := step_frame s c
  have hupdate := update_exact hkept hallowed hcovered
  have hlevel : (updateTokensForBitrateCtrl c.time s.bc).tokens.toNat ≤
      s.bc.maxCapacity.toNat := by
    rw [hupdate]
    exact Nat.min_le_left _ _
  have hspent := spent_step_le hkept hallowed hcovered
  have hfunded := funded_use (u := (recordOf s c).use)
    (funded_update hkept hallowed hcovered) hlevel hspent
  have huses : (step s c).history.map Record.use =
      s.history.map Record.use ++ [(recordOf s c).use] := by
    rw [step_history,List.map_append]
    rfl
  constructor
  · constructor
    · rw [hcapacity]
      omega
    · intro r hr
      rw [step_history,List.mem_append,List.mem_singleton] at hr
      rcases hr with hr | rfl
      · exact hkept.conformant.updates r hr
      · exact hupdate
    · rw [hcapacity,hrate,huses]
      exact conforms_use hkept.conformant.windows hfunded
    · rw [step_history,List.isChain_append]
      refine ⟨hkept.conformant.retries,List.isChain_singleton _,?_⟩
      intro r hr r' hr'
      cases hr'
      exact retryAdmitted_last hkept hallowed hcovered hr
  · rw [hcapacity,hrate,htime,huses]
    exact hfunded
  · intro hzero
    rw [htime] at hzero
    have htime := hallowed.time
    rw [hzero] at htime
    exact absurd htime (Nat.lt_irrefl _)
  · intro r hr
    rw [step_history,List.getLast?_concat] at hr
    cases hr
    refine ⟨htime.symm,?_⟩
    intro hrefused
    obtain ⟨hbc,hsleep⟩ :=
      (checkTransmitReady_outcome c.time c.bytes s.bc).of_refused hrefused
    rw [step_bc,hbc]
    exact hsleep

theorem kept_start (maxCapacity : U32) (bitRate : BitVec 64) (h : 0 < bitRate.toNat) :
    Kept (start maxCapacity bitRate h) where
  conformant := {
    tokens := Nat.le_refl _
    updates := fun r hr => by cases hr
    windows := conforms_nil
    retries := List.isChain_nil }
  funded := funded_nil
  first := fun _ => rfl
  last := fun r hr => by cases hr

end Runs

section Calls

variable {maxCapacity : U32} {bitRate : BitVec 64} {calls : List Call}

/-- Calls that meet the condition conform to the bucket, throughout. -/
theorem conformant_of_covered (hrate : 0 < bitRate.toNat)
    (hallowed : Guarded step Allowed (start maxCapacity bitRate hrate) calls)
    (hcovered : Guarded step Covered (start maxCapacity bitRate hrate) calls) :
    Along step Conformant (start maxCapacity bitRate hrate) calls := by
  have hboth : Guarded step (fun s c => Allowed s c ∧ Covered s c)
      (start maxCapacity bitRate hrate) calls := guarded_and.mpr ⟨hallowed,hcovered⟩
  have hkept := along_of_guarded (I := Kept)
    (fun s c hkept h => kept_step hkept h.1 h.2) (kept_start maxCapacity bitRate hrate) hboth
  exact along_mono (fun s h => h.conformant) hkept

theorem byteRate_pos : 0 < (8000000 : BitVec 64).toNat := by decide

/-- A byte in a microsecond: the frame refused halfway is admitted when the
bucket is full again. -/
theorem conformant_of_covered_byte_rate :
    Along step Conformant (start 1000 8000000 byteRate_pos)
      [⟨1,1000⟩,⟨501,1000⟩,⟨1001,1000⟩] := by
  refine conformant_of_covered byteRate_pos ?_ ?_
  · exact ⟨⟨by decide,by decide,by decide,by decide⟩,⟨by decide,by decide,by decide,by decide⟩,
      ⟨by decide,by decide,by decide,by decide⟩,trivial⟩
  · exact ⟨⟨by decide,by decide,by decide⟩,⟨by decide,by decide,by decide⟩,
      ⟨by decide,by decide,by decide⟩,trivial⟩

theorem twoByteRate_pos : 0 < (16000000 : BitVec 64).toNat := by decide

/-- Two bytes in a microsecond: one byte more than the bucket is admitted at
once, as its sleep time rounds to zero. -/
theorem unfunded_frame_exceeds_bucket :
    Guarded step Allowed (start 1000 16000000 twoByteRate_pos) [⟨1,1000⟩,⟨1,1⟩] ∧
      ¬ Along step Conformant (start 1000 16000000 twoByteRate_pos) [⟨1,1000⟩,⟨1,1⟩] := by
  refine ⟨⟨⟨by decide,by decide,by decide,by decide⟩,
    ⟨by decide,by decide,by decide,by decide⟩,trivial⟩,?_⟩
  intro h
  have hfinal := along_final h
  have hwindow := hfinal.windows 0 1 ⟨1,1000⟩ ⟨1,1⟩ (by decide) rfl rfl
  revert hwindow
  decide

end Calls

end EthernetFirmware.BitrateControl
