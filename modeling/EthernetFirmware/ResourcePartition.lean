import EthernetFirmware.FrontFilling
import EthernetFirmware.RemoteConfig
import EthernetFirmware.SlotTables

/-!
# Partition of the resources over the cores

When the server starts it adds what the configured virtual ports ask for to
the resources of their cores: the counts of channels, flows and addresses,
and the transmit channels themselves, which take the entries of the core's
list that are left open. A core the table does not have is reported and
then written behind its last entry, and channels that find no open entry
are dropped. Only an empty address pool stops the server.
-/

namespace EthernetFirmware.ResourcePartition

open Function RemoteConfig SlotTables FrontFilling

/-- `EnetRm_TxCh`. -/
inductive TxCh where
  /-- A channel. -/
  | ch (n : U32)
  /-- `ENET_RM_TX_CH_ANY`. -/
  | any
  deriving DecidableEq

/-- What the partition has for a core. -/
structure CoreResInfo where
  /-- The core. -/
  coreId : U32
  /-- Number of transmit channels. -/
  numTxCh : U32
  /-- The channels; `ENET_CFG_TX_CHANNELS_NUM` entries. -/
  txCh : List TxCh
  /-- Number of receive flows. -/
  numRxFlows : U32
  /-- Number of addresses. -/
  numMacAddress : U32

/-- `EnetRm_ResPrms`: the table and what lies behind its last entry. -/
structure ResPrms where
  /-- Memory from the first entry on. -/
  coreResInfo : ℕ → CoreResInfo
  /-- Number of entries. -/
  numCores : ℕ

/-- The fields of `EthFwVirtPort_VirtPortCfg` the partition reads. -/
structure VirtPortCfg where
  /-- The core of the port. -/
  remoteCoreId : U32
  /-- Number of its transmit channels. -/
  numTxCh : U32
  /-- Memory from its first channel on. -/
  txCh : ℕ → TxCh
  /-- Number of its receive flows. -/
  numRxFlow : U32
  /-- Number of its addresses. -/
  numMacAddress : U32

/-- The channels of a port. -/
def VirtPortCfg.channels (c : VirtPortCfg) : List TxCh :=
  (List.range c.numTxCh.toNat).map c.txCh

/-- What filling a list of channels leaves. -/
structure Filling where
  /-- The list. -/
  txCh : List TxCh
  /-- Indices of the port's channels that were read. -/
  reads : List ℕ

/-- The loop of `EthFw_setTxChRmInfo` over the rest of the list, with the channels of the
port taken so far. The channels are counted after an entry, not before it. -/
def fillLoop (c : VirtPortCfg) : List TxCh → ℕ → Filling
  | [],_ => ⟨[],[]⟩
  | e :: l,j =>
    if e = TxCh.any then
      if j + 1 = c.numTxCh.toNat then ⟨c.txCh j :: l,[j]⟩
      else
        let r := fillLoop c l (j + 1)
        ⟨c.txCh j :: r.txCh,j :: r.reads⟩
    else if j = c.numTxCh.toNat then ⟨e :: l,[]⟩
    else
      let r := fillLoop c l j
      ⟨e :: r.txCh,r.reads⟩

/-- `EthFw_setTxChRmInfo` on the list of a core. -/
def setTxChRmInfo (c : VirtPortCfg) (l : List TxCh) : Filling := fillLoop c l 0

/-- `EthFw_getCoreDmaResIndex`; the number of entries for a core without one. -/
def getCoreDmaResIndex (p : ResPrms) (coreId : U32) : ℕ :=
  (firstSlot (fun e : CoreResInfo => decide (e.coreId = coreId))
    fun i : Fin p.numCores => p.coreResInfo i).elim p.numCores Fin.val

/-- A core with what a port of it asks for. -/
def CoreResInfo.add (e : CoreResInfo) (c : VirtPortCfg) : CoreResInfo :=
  { e with
    numTxCh := e.numTxCh + c.numTxCh
    numRxFlows := e.numRxFlows + c.numRxFlow
    numMacAddress := e.numMacAddress + c.numMacAddress
    txCh := (setTxChRmInfo c e.txCh).txCh }

/-- The table while ports are added, with the accesses made. -/
structure Run where
  /-- The table. -/
  prms : ResPrms
  /-- Entries written. -/
  writes : List ℕ
  /-- Channels read, by port. -/
  reads : List (VirtPortCfg × ℕ)

/-- One round of the loop of `EthFw_updateEnetRm`. -/
def addPort (r : Run) (c : VirtPortCfg) : Run :=
  let coreIdx := getCoreDmaResIndex r.prms c.remoteCoreId
  let e := r.prms.coreResInfo coreIdx
  ⟨⟨update r.prms.coreResInfo coreIdx (e.add c),r.prms.numCores⟩,r.writes ++ [coreIdx],
    r.reads ++ (setTxChRmInfo c e.txCh).reads.map fun j => (c,j)⟩

/-- The check of the address pool. -/
inductive PoolCheck where
  /-- The pool is empty: an assertion stops the server. -/
  | empty
  /-- Fewer addresses than asked for: a warning. -/
  | small (req alloc : U32)
  /-- Enough addresses. -/
  | enough
  deriving DecidableEq

/-- What `EthFw_updateEnetRm` leaves. -/
structure Result where
  /-- The table and the accesses. -/
  run : Run
  /-- Size of the address pool. -/
  numMacAddress : U32
  /-- What became of its check. -/
  pool : PoolCheck

/-- `EthFw_updateEnetRm` for an address list of the given length in an array of the given
size. -/
def updateEnetRm (p : ResPrms) (virtPortCfg : List VirtPortCfg) (numMacAddress arraySize : U32) :
    Result :=
  let run := virtPortCfg.foldl addPort ⟨p,[],[]⟩
  let req := ((List.range p.numCores).map fun i => (run.prms.coreResInfo i).numMacAddress).sum
  let alloc := if arraySize < numMacAddress then arraySize else numMacAddress
  let pool := if alloc = 0#32 then PoolCheck.empty
    else if alloc < req then PoolCheck.small req alloc else PoolCheck.enough
  ⟨run,alloc,pool⟩

/-- Ports of the core of an entry: the first one for their core. -/
def assigned (p : ResPrms) (cs : List VirtPortCfg) (k : ℕ) : List VirtPortCfg :=
  cs.filter fun c => decide (getCoreDmaResIndex p c.remoteCoreId = k)

/-- All channels of ports, in port order. -/
def allChannels (cs : List VirtPortCfg) : List TxCh := (cs.map VirtPortCfg.channels).flatten

/-- Every port's core has an entry. -/
def AllKnown (p : ResPrms) (cs : List VirtPortCfg) : Prop :=
  ∀ c ∈ cs, ∃ k < p.numCores, (p.coreResInfo k).coreId = c.remoteCoreId

/-- The open entries of every core are enough for the channels of its ports. -/
def AllFit (p : ResPrms) (cs : List VirtPortCfg) : Prop :=
  ∀ k < p.numCores,
    (allChannels (assigned p cs k)).length ≤ (p.coreResInfo k).txCh.count TxCh.any

/-- The core has exactly what it had and what its ports ask for. -/
structure CoreExact (before after : CoreResInfo) (cs : List VirtPortCfg) : Prop where
  /-- Channels are counted. -/
  numTxCh : after.numTxCh.toNat = before.numTxCh.toNat + (cs.map fun c => c.numTxCh.toNat).sum
  /-- Flows are counted. -/
  numRxFlows :
    after.numRxFlows.toNat = before.numRxFlows.toNat + (cs.map fun c => c.numRxFlow.toNat).sum
  /-- Addresses are counted. -/
  numMacAddress : after.numMacAddress.toNat =
    before.numMacAddress.toNat + (cs.map fun c => c.numMacAddress.toNat).sum
  /-- Open entries are filled from the front, in port order. -/
  txCh : after.txCh = fillFront TxCh.any before.txCh (allChannels cs)

/-- The partition is what the configuration asks for, and a configuration it cannot be made
for stops the server. -/
structure Exact (p : ResPrms) (cs : List VirtPortCfg) (numMacAddress arraySize : U32) :
    Prop where
  /-- No channel is read that the port does not have. -/
  reads : ∀ x ∈ (updateEnetRm p cs numMacAddress arraySize).run.reads, x.2 < x.1.numTxCh.toNat
  /-- No entry is written that the table does not have. -/
  writes : ∀ k ∈ (updateEnetRm p cs numMacAddress arraySize).run.writes, k < p.numCores
  /-- Every core gets what its ports ask for. -/
  cores : AllKnown p cs → AllFit p cs → ∀ k < p.numCores, CoreExact (p.coreResInfo k)
    ((updateEnetRm p cs numMacAddress arraySize).run.prms.coreResInfo k) (assigned p cs k)
  /-- Unknown cores and channels without room are refused. -/
  refused : ¬ (AllKnown p cs ∧ AllFit p cs) →
    (updateEnetRm p cs numMacAddress arraySize).pool = PoolCheck.empty

/-- A port without channels does not find the first entry open: it was not, or an earlier
port with channels has put one there. -/
def Led (l : List TxCh) (cs : List VirtPortCfg) : Prop :=
  ∀ pre c post, cs = pre ++ c :: post → c.numTxCh.toNat = 0 →
    l.head? ≠ some TxCh.any ∨ ∃ d ∈ pre, d.numTxCh.toNat ≠ 0 ∧ d.txCh 0 ≠ TxCh.any

/-- The counts of the core stay 32-bit words. -/
structure Bounded (e : CoreResInfo) (cs : List VirtPortCfg) : Prop where
  /-- Channels. -/
  numTxCh : e.numTxCh.toNat + (cs.map fun c => c.numTxCh.toNat).sum < 2 ^ 32
  /-- Flows. -/
  numRxFlows : e.numRxFlows.toNat + (cs.map fun c => c.numRxFlow.toNat).sum < 2 ^ 32
  /-- Addresses. -/
  numMacAddress : e.numMacAddress.toNat + (cs.map fun c => c.numMacAddress.toNat).sum < 2 ^ 32

/-- The configurations the partition is exact for. -/
structure Regular (p : ResPrms) (cs : List VirtPortCfg) (numMacAddress arraySize : U32) :
    Prop where
  /-- Every port's core has an entry. -/
  known : AllKnown p cs
  /-- Ports without channels do not find the first entry of their core open. -/
  led : ∀ k < p.numCores, Led (p.coreResInfo k).txCh (assigned p cs k)
  /-- The channels fit, or the address pool is empty. -/
  room : AllFit p cs ∨ numMacAddress = 0#32 ∨ arraySize = 0#32
  /-- When they fit, the counts do too, and no port's channel is left open for a later port. -/
  exact : AllFit p cs → ∀ k < p.numCores, Bounded (p.coreResInfo k) (assigned p cs k) ∧
    Packed TxCh.any ((assigned p cs k).map VirtPortCfg.channels)

section Channels

variable {c : VirtPortCfg} {cs : List VirtPortCfg} {l : List TxCh} {e : CoreResInfo} {j : ℕ}

/-- A port with channels left fills open entries with them. -/
theorem fillLoop_txCh (h : j < c.numTxCh.toNat) : (fillLoop c l j).txCh =
    fillFront TxCh.any l ((List.range' j (c.numTxCh.toNat - j)).map c.txCh) := by
  induction l generalizing j with
  | nil => simp [fillLoop]
  | cons e l ih =>
    have hsucc : List.range' j (c.numTxCh.toNat - j) =
        j :: List.range' (j + 1) (c.numTxCh.toNat - (j + 1)) := by
      rw [show c.numTxCh.toNat - j = c.numTxCh.toNat - (j + 1) + 1 by omega,List.range'_succ]
    unfold fillLoop
    by_cases he : e = TxCh.any
    · rw [if_pos he,he,hsucc,List.map_cons,fillFront_free]
      by_cases hj : j + 1 = c.numTxCh.toNat
      · rw [if_pos hj,← hj,Nat.sub_self]
        simp
      · rw [if_neg hj]
        exact congrArg (c.txCh j :: ·) (ih (by omega))
    · rw [if_neg he,if_neg (by omega),fillFront_taken he]
      exact congrArg (e :: ·) (ih h)

/-- It reads its own channels only. -/
theorem fillLoop_reads (h : j < c.numTxCh.toNat) : ∀ i ∈ (fillLoop c l j).reads,
    i < c.numTxCh.toNat := by
  induction l generalizing j with
  | nil => simp [fillLoop]
  | cons e l ih =>
    unfold fillLoop
    intro i hi
    by_cases he : e = TxCh.any
    · rw [if_pos he] at hi
      by_cases hj : j + 1 = c.numTxCh.toNat
      · rw [if_pos hj,List.mem_singleton] at hi
        omega
      · rw [if_neg hj] at hi
        rcases List.mem_cons.mp hi with rfl | hi
        · exact h
        · exact ih (by omega) i hi
    · rw [if_neg he,if_neg (by omega)] at hi
      exact ih h i hi

/-- The second list has the entries of the first, and those that are fixed as they were. -/
structure Refines (l m : List TxCh) : Prop where
  /-- No entry comes or goes. -/
  length : m.length = l.length
  /-- Fixed entries stay. -/
  fixed : ∀ (i : ℕ) e, l[i]? = some e → e ≠ TxCh.any → m[i]? = some e

theorem Refines.refl (l : List TxCh) : Refines l l := ⟨rfl,fun _ _ h _ => h⟩

theorem Refines.trans {m n : List TxCh} (h : Refines l m) (h' : Refines m n) : Refines l n :=
  ⟨h'.length.trans h.length,fun i e hl he => h'.fixed i e (h.fixed i e hl he) he⟩

theorem Refines.cons {m : List TxCh} {d e : TxCh} (h : Refines l m) (hd : e ≠ TxCh.any → d = e) :
    Refines (e :: l) (d :: m) := by
  refine ⟨congrArg (· + 1) h.length,fun i b hl hb => ?_⟩
  cases i with
  | zero =>
    rw [List.getElem?_cons_zero,Option.some.injEq] at hl
    subst hl
    rw [List.getElem?_cons_zero,hd hb]
  | succ i => exact h.fixed i b hl hb

/-- Whatever a port asks for, the list keeps its length and its fixed entries. -/
theorem fillLoop_refines : Refines l (fillLoop c l j).txCh := by
  induction l generalizing j with
  | nil => exact Refines.refl _
  | cons e l ih =>
    unfold fillLoop
    by_cases he : e = TxCh.any
    · rw [if_pos he]
      by_cases hj : j + 1 = c.numTxCh.toNat
      · rw [if_pos hj]
        exact (Refines.refl l).cons fun hne => absurd he hne
      · rw [if_neg hj]
        exact ih.cons fun hne => absurd he hne
    · rw [if_neg he]
      by_cases hj : j = c.numTxCh.toNat
      · rw [if_pos hj]
        exact Refines.refl _
      · rw [if_neg hj]
        exact ih.cons fun _ => rfl

/-- A port without channels stops at an entry that is not open. -/
theorem fillLoop_of_zero (hn : c.numTxCh.toNat = 0) (hl : l.head? ≠ some TxCh.any) :
    fillLoop c l 0 = ⟨l,[]⟩ := by
  cases l with
  | nil => rfl
  | cons e l =>
    have he : e ≠ TxCh.any := fun he => hl (by rw [he]; rfl)
    unfold fillLoop
    rw [if_neg he,if_pos hn.symm]

/-- At an open entry it reads a channel it does not have. -/
theorem zero_mem_reads (hn : c.numTxCh.toNat = 0) (hl : l.head? = some TxCh.any) :
    0 ∈ (setTxChRmInfo c l).reads := by
  cases l with
  | nil => contradiction
  | cons e l =>
    have he : e = TxCh.any := Option.some.inj hl
    unfold setTxChRmInfo fillLoop
    rw [if_pos he,if_neg (by omega)]
    simp

/-- A port reads its own channels only unless it has none and finds the first entry open. -/
theorem setTxChRmInfo_reads_iff : (∀ i ∈ (setTxChRmInfo c l).reads, i < c.numTxCh.toNat) ↔
    (c.numTxCh.toNat = 0 → l.head? ≠ some TxCh.any) := by
  constructor
  · intro h hn hl
    have hlt := h 0 (zero_mem_reads hn hl)
    omega
  · intro h
    by_cases hn : c.numTxCh.toNat = 0
    · rw [setTxChRmInfo,fillLoop_of_zero hn (h hn)]
      simp
    · exact fillLoop_reads (by omega)

/-- Then it fills the open entries with its channels. -/
theorem setTxChRmInfo_txCh (h : c.numTxCh.toNat = 0 → l.head? ≠ some TxCh.any) :
    (setTxChRmInfo c l).txCh = fillFront TxCh.any l c.channels := by
  by_cases hn : c.numTxCh.toNat = 0
  · rw [setTxChRmInfo,fillLoop_of_zero hn (h hn),VirtPortCfg.channels,hn]
    simp
  · rw [setTxChRmInfo,fillLoop_txCh (by omega),VirtPortCfg.channels,List.range_eq_range',
      Nat.sub_zero]

/-- A port with channels leaves the first entry open when it was and the first channel is. -/
theorem head_setTxChRmInfo (hn : c.numTxCh.toNat ≠ 0) :
    (setTxChRmInfo c l).txCh.head? = some TxCh.any ↔
      l.head? = some TxCh.any ∧ c.txCh 0 = TxCh.any := by
  rw [setTxChRmInfo_txCh fun h => absurd h hn]
  obtain ⟨n,hsucc⟩ := Nat.exists_eq_succ_of_ne_zero hn
  have hcons : c.channels = c.txCh 0 :: (List.range' 1 n).map c.txCh := by
    rw [VirtPortCfg.channels,hsucc,List.range_eq_range',List.range'_succ,List.map_cons]
  rw [hcons]
  cases l with
  | nil => simp
  | cons e l =>
    by_cases he : e = TxCh.any
    · simp [he]
    · simp [fillFront_taken he,he]

end Channels

section Cores

variable {c : VirtPortCfg} {cs : List VirtPortCfg} {l : List TxCh} {e : CoreResInfo}

/-- Every port of the core reads its own channels only. -/
def ReadsWithin : CoreResInfo → List VirtPortCfg → Prop
  | _,[] => True
  | e,c :: cs => (∀ i ∈ (setTxChRmInfo c e.txCh).reads, i < c.numTxCh.toNat) ∧
    ReadsWithin (e.add c) cs

/-- A statement about every port and the ports before it, port by port. -/
theorem forall_split_cons {P : List VirtPortCfg → VirtPortCfg → Prop} :
    (∀ pre d post, c :: cs = pre ++ d :: post → P pre d) ↔
      P [] c ∧ ∀ pre d post, cs = pre ++ d :: post → P (c :: pre) d := by
  constructor
  · intro h
    refine ⟨h [] c cs rfl,fun pre d post heq => h (c :: pre) d post ?_⟩
    rw [heq,List.cons_append]
  · rintro ⟨hhead,htail⟩ pre d post heq
    cases pre with
    | nil =>
      rw [List.nil_append,List.cons.injEq] at heq
      rw [← heq.1]
      exact hhead
    | cons b pre =>
      rw [List.cons_append,List.cons.injEq] at heq
      rw [← heq.1]
      exact htail pre d post heq.2

theorem led_nil : Led l [] := by
  intro pre d post h
  simp at h

/-- A port without channels is no help to later ones. -/
theorem led_cons_of_zero (hn : c.numTxCh.toNat = 0) :
    Led l (c :: cs) ↔ l.head? ≠ some TxCh.any ∧ Led l cs := by
  unfold Led
  rw [forall_split_cons]
  simp [hn]

/-- A port with channels is, when its first one is fixed. -/
theorem led_cons_of_ne (hn : c.numTxCh.toNat ≠ 0) :
    Led l (c :: cs) ↔ Led (setTxChRmInfo c l).txCh cs := by
  unfold Led
  rw [forall_split_cons]
  simp only [hn,false_imp_iff,true_and,Ne,head_setTxChRmInfo hn,List.mem_cons,
    exists_eq_or_imp,not_false_eq_true,not_and_or,or_assoc]

/-- The ports read their own channels exactly when those without are led. -/
theorem readsWithin_iff_led : ReadsWithin e cs ↔ Led e.txCh cs := by
  induction cs generalizing e with
  | nil => exact iff_of_true trivial led_nil
  | cons c cs ih =>
    rw [ReadsWithin,setTxChRmInfo_reads_iff,ih]
    by_cases hn : c.numTxCh.toNat = 0
    · rw [led_cons_of_zero hn]
      simp only [hn,forall_const]
      refine and_congr_right fun hhead => ?_
      have hsame : (e.add c).txCh = e.txCh := by
        change (fillLoop c e.txCh 0).txCh = _
        rw [fillLoop_of_zero hn hhead]
      rw [hsame]
    · rw [led_cons_of_ne hn]
      exact and_iff_right fun h => absurd h hn

/-- Then they fill the list of their core one after the other. -/
theorem foldl_add_txCh (h : ReadsWithin e cs) : (cs.foldl CoreResInfo.add e).txCh =
    (cs.map VirtPortCfg.channels).foldl (fillFront TxCh.any) e.txCh := by
  induction cs generalizing e with
  | nil => rfl
  | cons c cs ih =>
    have hstep : (e.add c).txCh = fillFront TxCh.any e.txCh c.channels :=
      setTxChRmInfo_txCh (setTxChRmInfo_reads_iff.mp h.1)
    rw [List.foldl_cons,ih h.2,hstep,List.map_cons,List.foldl_cons]

theorem foldl_add_refines : Refines e.txCh (cs.foldl CoreResInfo.add e).txCh := by
  induction cs generalizing e with
  | nil => exact Refines.refl _
  | cons c cs ih =>
    have hstep : Refines e.txCh (e.add c).txCh := fillLoop_refines
    exact hstep.trans ih

/-- A count is the sum of what the ports ask for while that is a 32-bit word. -/
theorem foldl_count_iff {f : CoreResInfo → U32} {g : VirtPortCfg → U32}
    (hstep : ∀ e c, f (CoreResInfo.add e c) = f e + g c) :
    (f (cs.foldl CoreResInfo.add e)).toNat = (f e).toNat + (cs.map fun c => (g c).toNat).sum ↔
      (f e).toNat + (cs.map fun c => (g c).toNat).sum < 2 ^ 32 := by
  have hmod : (f (cs.foldl CoreResInfo.add e)).toNat =
      ((f e).toNat + (cs.map fun c => (g c).toNat).sum) % 2 ^ 32 := by
    induction cs generalizing e with
    | nil => simpa using (Nat.mod_eq_of_lt (f e).isLt).symm
    | cons c cs ih =>
      rw [List.foldl_cons,ih,hstep,BitVec.toNat_add,List.map_cons,List.sum_cons,
        Nat.mod_add_mod,Nat.add_assoc]
  rw [hmod]
  exact ⟨fun h => h ▸ Nat.mod_lt _ (by omega),Nat.mod_eq_of_lt⟩

/-- With room for the channels of its ports a core gets what they ask for exactly when the
counts stay 32-bit words and no channel is left open for a later port. -/
theorem coreExact_iff (hreads : ReadsWithin e cs)
    (hfit : (allChannels cs).length ≤ e.txCh.count TxCh.any) :
    CoreExact e (cs.foldl CoreResInfo.add e) cs ↔
      Bounded e cs ∧ Packed TxCh.any (cs.map VirtPortCfg.channels) := by
  have htx : (cs.foldl CoreResInfo.add e).txCh = fillFront TxCh.any e.txCh (allChannels cs) ↔
      Packed TxCh.any (cs.map VirtPortCfg.channels) := by
    rw [foldl_add_txCh hreads]
    exact foldl_fillFront_iff hfit
  have hch : ∀ e c, (CoreResInfo.add e c).numTxCh = e.numTxCh + c.numTxCh := fun _ _ => rfl
  have hrx : ∀ e c, (CoreResInfo.add e c).numRxFlows = e.numRxFlows + c.numRxFlow :=
    fun _ _ => rfl
  have hmac : ∀ e c, (CoreResInfo.add e c).numMacAddress = e.numMacAddress + c.numMacAddress :=
    fun _ _ => rfl
  constructor
  · intro h
    exact ⟨⟨(foldl_count_iff hch).mp h.numTxCh,(foldl_count_iff hrx).mp h.numRxFlows,
      (foldl_count_iff hmac).mp h.numMacAddress⟩,htx.mp h.txCh⟩
  · rintro ⟨hb,hp⟩
    exact ⟨(foldl_count_iff hch).mpr hb.numTxCh,(foldl_count_iff hrx).mpr hb.numRxFlows,
      (foldl_count_iff hmac).mpr hb.numMacAddress,htx.mpr hp⟩

end Cores

section Runs

variable {p q : ResPrms} {c : VirtPortCfg} {cs : List VirtPortCfg} {r : Run} {coreId : U32}
  {k : ℕ} {numMacAddress arraySize : U32}

/-- The index is one of the table exactly for a core with an entry. -/
theorem getCoreDmaResIndex_lt_iff : getCoreDmaResIndex p coreId < p.numCores ↔
    ∃ k < p.numCores, (p.coreResInfo k).coreId = coreId := by
  unfold getCoreDmaResIndex
  cases h : firstSlot (fun e : CoreResInfo => decide (e.coreId = coreId))
      fun i : Fin p.numCores => p.coreResInfo i with
  | none =>
    have hno := firstSlot_eq_none_iff.mp h
    refine iff_of_false (Nat.lt_irrefl _) ?_
    rintro ⟨k,hk,hcore⟩
    exact absurd hcore (of_decide_eq_false (hno ⟨k,hk⟩))
  | some i =>
    have hi := (firstSlot_eq_some_iff.mp h).1
    exact iff_of_true i.isLt ⟨i,i.isLt,of_decide_eq_true hi⟩

/-- Adding a port changes no core's place. -/
theorem getCoreDmaResIndex_addPort :
    getCoreDmaResIndex (addPort r c).prms coreId = getCoreDmaResIndex r.prms coreId := by
  have hcore : ∀ i, ((addPort r c).prms.coreResInfo i).coreId = (r.prms.coreResInfo i).coreId := by
    intro i
    by_cases hi : i = getCoreDmaResIndex r.prms c.remoteCoreId
    · subst hi
      simp [addPort,CoreResInfo.add]
    · simp [addPort,hi]
  have hslot : (firstSlot (fun e : CoreResInfo => decide (e.coreId = coreId))
        fun i : Fin r.prms.numCores => (addPort r c).prms.coreResInfo i) =
      firstSlot (fun e : CoreResInfo => decide (e.coreId = coreId))
        fun i : Fin r.prms.numCores => r.prms.coreResInfo i := by
    unfold firstSlot
    simp only [hcore]
  unfold getCoreDmaResIndex
  exact congrArg (Option.elim · r.prms.numCores Fin.val) hslot

theorem assigned_addPort : assigned (addPort r c).prms cs k = assigned r.prms cs k := by
  simp only [assigned,getCoreDmaResIndex_addPort]

theorem assigned_cons_self (hk : getCoreDmaResIndex p c.remoteCoreId = k) :
    assigned p (c :: cs) k = c :: assigned p cs k :=
  List.filter_cons_of_pos (decide_eq_true hk)

theorem assigned_cons_of_ne (hk : getCoreDmaResIndex p c.remoteCoreId ≠ k) :
    assigned p (c :: cs) k = assigned p cs k :=
  List.filter_cons_of_neg (by simpa using hk)

theorem addPort_coreResInfo_self (hk : getCoreDmaResIndex r.prms c.remoteCoreId = k) :
    (addPort r c).prms.coreResInfo k = (r.prms.coreResInfo k).add c := by
  subst hk
  simp [addPort]

theorem addPort_coreResInfo_of_ne (hk : getCoreDmaResIndex r.prms c.remoteCoreId ≠ k) :
    (addPort r c).prms.coreResInfo k = r.prms.coreResInfo k := by
  simp [addPort,Ne.symm hk]

/-- A core gets its own ports, in port order, and nothing else. -/
theorem foldl_coreResInfo (k : ℕ) : (cs.foldl addPort r).prms.coreResInfo k =
    (assigned r.prms cs k).foldl CoreResInfo.add (r.prms.coreResInfo k) := by
  induction cs generalizing r with
  | nil => rfl
  | cons c cs ih =>
    rw [List.foldl_cons,ih,assigned_addPort]
    by_cases hk : getCoreDmaResIndex r.prms c.remoteCoreId = k
    · rw [assigned_cons_self hk,addPort_coreResInfo_self hk,List.foldl_cons]
    · rw [assigned_cons_of_ne hk,addPort_coreResInfo_of_ne hk]

/-- Whatever is configured, no list gets longer and no fixed entry changes. -/
theorem updateEnetRm_refines (k : ℕ) : Refines (p.coreResInfo k).txCh
    ((updateEnetRm p cs numMacAddress arraySize).run.prms.coreResInfo k).txCh := by
  change Refines _ ((cs.foldl addPort ⟨p,[],[]⟩).prms.coreResInfo k).txCh
  rw [foldl_coreResInfo]
  exact foldl_add_refines

/-- The entries written are those of the ports' cores. -/
theorem foldl_writes : (cs.foldl addPort r).writes =
    r.writes ++ cs.map fun c => getCoreDmaResIndex r.prms c.remoteCoreId := by
  induction cs generalizing r with
  | nil => simp
  | cons c cs ih =>
    rw [List.foldl_cons,ih,List.map_cons]
    simp only [getCoreDmaResIndex_addPort]
    exact List.append_assoc _ _ _

/-- Only channels that ports have are read when this is so core by core. -/
theorem foldl_reads_iff :
    (∀ x ∈ (cs.foldl addPort r).reads, x.2 < x.1.numTxCh.toNat) ↔
      (∀ x ∈ r.reads, x.2 < x.1.numTxCh.toNat) ∧
        ∀ k, ReadsWithin (r.prms.coreResInfo k) (assigned r.prms cs k) := by
  induction cs generalizing r with
  | nil => exact (and_iff_left fun k => trivial).symm
  | cons c cs ih =>
    have hreads : (∀ x ∈ (addPort r c).reads, x.2 < x.1.numTxCh.toNat) ↔
        (∀ x ∈ r.reads, x.2 < x.1.numTxCh.toNat) ∧
          ∀ i ∈ (setTxChRmInfo c (r.prms.coreResInfo
            (getCoreDmaResIndex r.prms c.remoteCoreId)).txCh).reads, i < c.numTxCh.toNat := by
      simp only [addPort,List.forall_mem_append,List.forall_mem_map]
    rw [List.foldl_cons,ih,hreads,and_assoc]
    refine and_congr_right fun _ => ?_
    simp only [assigned_addPort]
    constructor
    · rintro ⟨hown,hall⟩ k
      have hrest := hall k
      by_cases hk : getCoreDmaResIndex r.prms c.remoteCoreId = k
      · rw [addPort_coreResInfo_self hk] at hrest
        rw [assigned_cons_self hk]
        rw [hk] at hown
        exact ⟨hown,hrest⟩
      · rw [addPort_coreResInfo_of_ne hk] at hrest
        rwa [assigned_cons_of_ne hk]
    · intro h
      have hself := h (getCoreDmaResIndex r.prms c.remoteCoreId)
      rw [assigned_cons_self rfl] at hself
      refine ⟨hself.1,fun k => ?_⟩
      have hk' := h k
      by_cases hk : getCoreDmaResIndex r.prms c.remoteCoreId = k
      · rw [assigned_cons_self hk] at hk'
        rw [addPort_coreResInfo_self hk]
        exact hk'.2
      · rw [assigned_cons_of_ne hk] at hk'
        rwa [addPort_coreResInfo_of_ne hk]

/-- Ports of known cores belong to entries of the table. -/
theorem assigned_eq_nil (hknown : AllKnown p cs) (hk : ¬ k < p.numCores) :
    assigned p cs k = [] := by
  refine List.filter_eq_nil_iff.mpr fun c hc h => hk ?_
  rw [← of_decide_eq_true h]
  exact getCoreDmaResIndex_lt_iff.mpr (hknown c hc)

/-- The entries written are those of the table exactly when every core is known. -/
theorem writes_iff :
    (∀ k ∈ (updateEnetRm p cs numMacAddress arraySize).run.writes, k < p.numCores) ↔
      AllKnown p cs := by
  change (∀ k ∈ (cs.foldl addPort ⟨p,[],[]⟩).writes, k < p.numCores) ↔ _
  rw [foldl_writes,List.nil_append]
  simp only [List.forall_mem_map,getCoreDmaResIndex_lt_iff,AllKnown]

theorem reads_iff (hknown : AllKnown p cs) :
    (∀ x ∈ (updateEnetRm p cs numMacAddress arraySize).run.reads, x.2 < x.1.numTxCh.toNat) ↔
      ∀ k < p.numCores, Led (p.coreResInfo k).txCh (assigned p cs k) := by
  change (∀ x ∈ (cs.foldl addPort ⟨p,[],[]⟩).reads, x.2 < x.1.numTxCh.toNat) ↔ _
  rw [foldl_reads_iff]
  simp only [List.not_mem_nil,false_imp_iff,implies_true,true_and,readsWithin_iff_led]
  refine ⟨fun h k _ => h k,fun h k => ?_⟩
  by_cases hk : k < p.numCores
  · exact h k hk
  · rw [assigned_eq_nil hknown hk]
    exact led_nil

/-- The pool counts as empty when the list is, or its array. -/
theorem pool_eq_empty_iff :
    (updateEnetRm p cs numMacAddress arraySize).pool = PoolCheck.empty ↔
      numMacAddress = 0#32 ∨ arraySize = 0#32 := by
  have halloc : (if arraySize < numMacAddress then arraySize else numMacAddress) = 0#32 ↔
      numMacAddress = 0#32 ∨ arraySize = 0#32 := by
    split <;> bv_omega
  rw [← halloc]
  unfold updateEnetRm
  dsimp only
  generalize (if arraySize < numMacAddress then arraySize else numMacAddress) = alloc
  by_cases h : alloc = 0#32
  · simp [h]
  · rw [if_neg h]
    refine iff_of_false ?_ h
    split <;> simp

/-- A core gets exactly what its ports ask for when it has room for their channels, the counts
stay 32-bit words and no channel is left open for a later port. -/
theorem cores_iff (hled : ∀ k < p.numCores, Led (p.coreResInfo k).txCh (assigned p cs k))
    (hfit : AllFit p cs) (hk : k < p.numCores) :
    CoreExact (p.coreResInfo k)
      ((updateEnetRm p cs numMacAddress arraySize).run.prms.coreResInfo k) (assigned p cs k) ↔
      Bounded (p.coreResInfo k) (assigned p cs k) ∧
        Packed TxCh.any ((assigned p cs k).map VirtPortCfg.channels) := by
  change CoreExact _ ((cs.foldl addPort ⟨p,[],[]⟩).prms.coreResInfo k) _ ↔ _
  rw [foldl_coreResInfo]
  exact coreExact_iff (readsWithin_iff_led.mpr (hled k hk)) (hfit k hk)

/-- The partition is what the configuration asks for exactly when the configuration is
regular. -/
theorem partition_exact_iff (p : ResPrms) (cs : List VirtPortCfg)
    (numMacAddress arraySize : U32) :
    Exact p cs numMacAddress arraySize ↔ Regular p cs numMacAddress arraySize := by
  constructor
  · intro h
    have hknown := writes_iff.mp h.writes
    have hled := (reads_iff hknown).mp h.reads
    refine ⟨hknown,hled,?_,fun hfit k hk => ?_⟩
    · by_cases hfit : AllFit p cs
      · exact Or.inl hfit
      · exact Or.inr (pool_eq_empty_iff.mp (h.refused fun hboth => hfit hboth.2))
    · exact (cores_iff hled hfit hk).mp (h.cores hknown hfit k hk)
  · intro h
    refine ⟨(reads_iff h.known).mpr h.led,writes_iff.mpr h.known,?_,?_⟩
    · intro _ hfit k hk
      exact (cores_iff h.led hfit hk).mpr (h.exact hfit k hk)
    · intro hno
      rw [pool_eq_empty_iff]
      exact h.room.resolve_left fun hfit => hno ⟨h.known,hfit⟩

/-- One core whose two channels are open. -/
def oneCore : ResPrms := ⟨fun _ => ⟨7#32,0#32,[TxCh.any,TxCh.any],0#32,0#32⟩,1⟩

/-- A port of the core without channels. -/
def portWithoutChannels : VirtPortCfg := ⟨7#32,0#32,fun _ => TxCh.ch 0#32,1#32,1#32⟩

/-- A port without channels takes both. -/
theorem port_without_channels_takes_all : ¬ Exact oneCore [portWithoutChannels] 1#32 8#32 := by
  intro h
  have hread : ∃ x ∈ (updateEnetRm oneCore [portWithoutChannels] 1#32 8#32).run.reads,
      ¬ x.2 < x.1.numTxCh.toNat :=
    ⟨(portWithoutChannels,0),List.mem_cons_self ..,by decide⟩
  obtain ⟨x,hx,hlt⟩ := hread
  exact hlt (h.reads x hx)

end Runs

end EthernetFirmware.ResourcePartition
