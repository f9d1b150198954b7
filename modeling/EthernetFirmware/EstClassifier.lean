import Mathlib.Data.Fin.Basic
import Mathlib.Data.List.Basic
import EthernetFirmware.BitMasks
import EthernetFirmware.RemoteConfig

/-!
# Packet classification of the scheduled-traffic listener

A gate control list opens and closes the gates of eight priorities in turn,
entry by entry, and starts over after the cycle time. For each stream the
listener computes when packets of the stream's priority are due, and counts
each packet it receives as good or bad.

The due times are written at the entries' indices of an array and then moved
together, once for each stream, also where streams share a priority. What an
entry's time is, is modelled as the code computes it; the schedule itself is
stated with the sums of the intervals. Before the listener starts, the due times
of each stream are printed into a buffer, and an assertion stops the program when
they do not fit.
-/

namespace EthernetFirmware.EstClassifier

open Function RemoteConfig BitMasks

/-- `ESTDEMO_PRIORITY_MAX`. -/
def priorityMax : ℕ := 8

/-- An entry of a gate control list. -/
structure GateCmd where
  /-- Gates open during the entry. -/
  gateStateMask : U8
  /-- Length of the entry in nanoseconds. -/
  timeInterval : U32

/-- `EnetTas_ControlList`. -/
structure ControlList where
  /-- Start of the schedule. -/
  baseTime : BitVec 64
  /-- Length of the schedule. -/
  cycleTime : BitVec 64
  /-- The entries; `listLength` is their number. -/
  gateCmdList : List GateCmd

/-- `EstDemoTimeSlot`. -/
structure TimeSlot where
  /-- Expected start. -/
  start : BitVec 64
  /-- Expected end. -/
  endTime : BitVec 64

/-- `EstDemoPerPriorityTimeSlot`; the array has `ENET_TAS_MAX_CMD_LISTS`
elements. -/
structure PriorityTimeSlot where
  /-- Number of time slots. -/
  nLength : ℕ
  /-- The time slots. -/
  timeSlots : List TimeSlot

/-- `EstDemoStatsInfo`. -/
structure StatsInfo where
  /-- Packets inside a time slot. -/
  nGoodPkt : BitVec 64
  /-- Packets outside. -/
  nBadPkt : BitVec 64

/-- `EthFwEstDemoCtx`. -/
structure Ctx where
  /-- Packet counts by priority. -/
  estStatsInfo : Fin priorityMax → StatsInfo
  /-- Time slots by priority. -/
  exptTimeSlots : Fin priorityMax → PriorityTimeSlot

/-- A received packet. -/
structure Packet where
  /-- Priority the packet came with. -/
  tcid : ℕ
  /-- Receive timestamp. -/
  rxts : BitVec 64

/-- The gate of a priority is open. -/
def gateOpen (c : GateCmd) (priority : ℕ) : Bool := isSet c.gateStateMask priority

/-- Time slot of an entry, in 32-bit products. -/
def slotOf (j : ℕ) (c : GateCmd) : TimeSlot where
  start := (BitVec.ofNat 32 j * c.timeInterval).setWidth 64
  endTime := (BitVec.ofNat 32 (j + 1) * c.timeInterval).setWidth 64

/-- A time slot that counts as filled. -/
def isFilled (s : TimeSlot) : Bool := 0 < s.endTime

/-- Body of the inner loop of `EthFwEstDemo_calcExpectedTimeSlot`. -/
def fillSlot (priority j : ℕ) (c : GateCmd) (prm : PriorityTimeSlot) : PriorityTimeSlot :=
  if gateOpen c priority then ⟨prm.nLength + 1,prm.timeSlots.set j (slotOf j c)⟩ else prm

/-- The inner loop from index `j` on. -/
def fillSlots (priority : ℕ) : ℕ → List GateCmd → PriorityTimeSlot → PriorityTimeSlot
  | _, [], prm => prm
  | j, c :: cs, prm => fillSlots priority (j + 1) cs (fillSlot priority j c prm)

/-- `EthFwEstDemo_defragmentTimeSlots`: the filled slots are copied to the
front; what stood behind them stays. -/
def defragmentTimeSlots (prm : PriorityTimeSlot) : PriorityTimeSlot :=
  let filled := prm.timeSlots.filter isFilled
  ⟨filled.length,filled ++ prm.timeSlots.drop filled.length⟩

/-- Body of the loop over the streams, for the priority of one. -/
def addStream (list : ControlList) (ctx : Ctx) (priority : Fin priorityMax) : Ctx :=
  { ctx with
    exptTimeSlots := update ctx.exptTimeSlots priority
      (defragmentTimeSlots
        (fillSlots priority 0 list.gateCmdList (ctx.exptTimeSlots priority))) }

/-- The loop over the streams. -/
def addStreams (list : ControlList) (ctx : Ctx) (streams : List (Fin priorityMax)) : Ctx :=
  streams.foldl (addStream list) ctx

/-- `MAX_LOG_LEN`, the size of the print buffer. -/
def maxLogLen : ℕ := 256

/-- Text before the slots of a priority. -/
def headText (priority : ℕ) : List Char :=
  "TimeSlots of PacketPriority: ".toList ++ Nat.toDigits 10 priority ++ ": ".toList

/-- Text of a slot. -/
def slotText (s : TimeSlot) : List Char :=
  "  [".toList ++ Nat.toDigits 10 s.start.toNat ++ ", ".toList ++
    Nat.toDigits 10 s.endTime.toNat ++ "]ns,".toList

/-- The loop that prints slots behind `n` characters. No assertion stops it. -/
def printSlots : ℕ → List TimeSlot → Bool
  | _, [] => true
  | n, s :: ss =>
    decide (n + (slotText s).length < maxLogLen) && printSlots (n + (slotText s).length) ss

/-- The second loop over the streams, for the priority of one. -/
def printStream (ctx : Ctx) (priority : Fin priorityMax) : Bool :=
  let prm := ctx.exptTimeSlots priority
  printSlots (headText priority).length (prm.timeSlots.take prm.nLength)

/-- `EthFwEstDemo_calcExpectedTimeSlot` for the priorities of the streams; a
failed assertion gives no result. -/
def calcExpectedTimeSlot (list : ControlList) (ctx : Ctx) (streams : List (Fin priorityMax)) :
    Option Ctx :=
  if streams.all (printStream (addStreams list ctx streams)) then
    some (addStreams list ctx streams)
  else none

/-- One more good packet. -/
def countGood (s : StatsInfo) : StatsInfo := { s with nGoodPkt := s.nGoodPkt + 1 }

/-- One more bad packet. -/
def countBad (s : StatsInfo) : StatsInfo := { s with nBadPkt := s.nBadPkt + 1 }

/-- What the handler leaves, with the indices it used in the arrays by
priority. -/
structure Handled where
  /-- Context afterwards. -/
  ctx : Ctx
  /-- Indices used. -/
  indices : List ℕ

/-- The time lies in one of the slots; the comparisons are unsigned. -/
def inSlots (prm : PriorityTimeSlot) (timeSlot : BitVec 64) : Bool :=
  (prm.timeSlots.take prm.nLength).any fun s => s.start ≤ timeSlot && timeSlot ≤ s.endTime

/-- `EthFwEstDemo_rxPacketHandler`; a division by zero gives no result. -/
def rxPacketHandler (list : ControlList) (ctx : Ctx) (pkt : Packet) : Option Handled :=
  if h : pkt.tcid < priorityMax then
    if list.cycleTime = 0 then none
    else
      let priority : Fin priorityMax := ⟨pkt.tcid,h⟩
      let timeSlot := (pkt.rxts - list.baseTime) % list.cycleTime
      let count := if inSlots (ctx.exptTimeSlots priority) timeSlot then countGood else countBad
      some
        ⟨{ ctx with
            estStatsInfo := update ctx.estStatsInfo priority (count (ctx.estStatsInfo priority)) },
          [pkt.tcid]⟩
  -- The count of bad packets behind the array is incremented.
  else some ⟨ctx,[pkt.tcid]⟩

/-- Context zeroed but for the counts. -/
def zeroed (maxCmdLists : ℕ) (stats : Fin priorityMax → StatsInfo) : Ctx where
  estStatsInfo := stats
  exptTimeSlots := fun _ => ⟨0,List.replicate maxCmdLists ⟨0,0⟩⟩

/-- Context of a listener, when it comes to start. -/
def listening (maxCmdLists : ℕ) (list : ControlList) (streams : List (Fin priorityMax))
    (stats : Fin priorityMax → StatsInfo) : Option Ctx :=
  calcExpectedTimeSlot list (zeroed maxCmdLists stats) streams

/-- Sum of the first intervals of a list. -/
def elapsed (cmds : List GateCmd) (j : ℕ) : ℕ :=
  ((cmds.take j).map fun c => c.timeInterval.toNat).sum

/-- The entry active at a time of the cycle has the gate open. -/
def ActiveOpen (cmds : List GateCmd) (priority time : ℕ) : Prop :=
  ∃ j c, cmds[j]? = some c ∧ elapsed cmds j ≤ time ∧ time < elapsed cmds (j + 1) ∧
    gateOpen c priority = true

/-- Time of the cycle at which a packet arrives. -/
def cycleOffset (list : ControlList) (pkt : Packet) : ℕ :=
  (pkt.rxts.toNat - list.baseTime.toNat) % list.cycleTime.toNat

/-- The packet is counted as the schedule demands, no other count changes and
no index leaves the arrays. -/
def Classified (list : ControlList) (streams : List (Fin priorityMax)) (ctx : Ctx)
    (pkt : Packet) : Prop :=
  ∃ r, rxPacketHandler list ctx pkt = some r ∧ (∀ i ∈ r.indices, i < priorityMax) ∧
    (∀ q : Fin priorityMax, q.val ≠ pkt.tcid → r.ctx.estStatsInfo q = ctx.estStatsInfo q) ∧
    ∀ p : Fin priorityMax, p.val = pkt.tcid →
      (p ∈ streams ∧ ActiveOpen list.gateCmdList p (cycleOffset list pkt) →
        r.ctx.estStatsInfo p = countGood (ctx.estStatsInfo p)) ∧
      (¬ (p ∈ streams ∧ ActiveOpen list.gateCmdList p (cycleOffset list pkt)) →
        r.ctx.estStatsInfo p = countBad (ctx.estStatsInfo p))

/-- Some open entry, at index `j`, has the time between `j` and `j + 1` times
its own interval, both bounds included and taken modulo `2 ^ 32`. -/
def InWindow (cmds : List GateCmd) (priority time : ℕ) : Prop :=
  ∃ j c, cmds[j]? = some c ∧ gateOpen c priority = true ∧
    0 < (j + 1) * c.timeInterval.toNat % 2 ^ 32 ∧
    j * c.timeInterval.toNat % 2 ^ 32 ≤ time ∧
    time ≤ (j + 1) * c.timeInterval.toNat % 2 ^ 32

/-- Slots in use after some streams of a priority: those of the open entries
that count as filled, and at the index of a closed entry what stood there after
the streams before. -/
def dueSlots (cmds : List GateCmd) (priority : ℕ) : ℕ → List TimeSlot
  | 0 => []
  | k + 1 => (List.range cmds.length).filterMap fun j =>
      cmds[j]?.bind fun c =>
        if gateOpen c priority then (some (slotOf j c)).filter isFilled
        else (dueSlots cmds priority k)[j]?

/-- The text of every stream is shorter than the buffer. -/
def Printable (cmds : List GateCmd) (streams : List (Fin priorityMax)) : Prop :=
  ∀ p ∈ streams, (headText p).length +
    ((dueSlots cmds p (streams.count p)).map fun s => (slotText s).length).sum < maxLogLen

instance (cmds : List GateCmd) (streams : List (Fin priorityMax)) :
    Decidable (Printable cmds streams) :=
  inferInstanceAs (Decidable (∀ p ∈ streams, _ < _))

section Lists

variable {α β : Type*}

/-- Filtering a list reads it index by index. -/
theorem filter_eq_filterMap_range (p : α → Bool) (l : List α) :
    l.filter p = (List.range l.length).filterMap fun i => (l[i]?).filter p := by
  induction l with
  | nil => rfl
  | cons a l ih =>
    rw [List.length_cons,List.range_succ_eq_map,List.filterMap_cons,List.filterMap_map]
    have hrest : (List.range l.length).filterMap
        ((fun i => ((a :: l)[i]?).filter p) ∘ Nat.succ) = l.filter p := ih.symm
    rw [hrest,List.getElem?_cons_zero,List.filter_cons]
    by_cases ha : p a = true
    · simp [ha,Option.filter]
    · simp [ha,Option.filter]

/-- What maps more to a value keeps more. -/
theorem length_filterMap_le_of_isSome {f g : α → Option β} {l : List α}
    (h : ∀ a ∈ l, (f a).isSome → (g a).isSome) :
    (l.filterMap f).length ≤ (l.filterMap g).length := by
  induction l with
  | nil => exact Nat.le_refl _
  | cons a l ih =>
    have hrest := ih fun b hb => h b (List.mem_cons_of_mem a hb)
    have ha := h a List.mem_cons_self
    rw [List.filterMap_cons,List.filterMap_cons]
    cases hf : f a with
    | none =>
      cases g a with
      | none => exact hrest
      | some c => exact Nat.le_succ_of_le hrest
    | some b =>
      rw [hf] at ha
      obtain ⟨c,hc⟩ := Option.isSome_iff_exists.mp (ha rfl)
      rw [hc]
      exact Nat.succ_le_succ hrest

end Lists

section Slots

variable {priority : ℕ} {cmds : List GateCmd} {prm : PriorityTimeSlot}

theorem length_fillSlot (j : ℕ) (c : GateCmd) :
    (fillSlot priority j c prm).timeSlots.length = prm.timeSlots.length := by
  unfold fillSlot
  split_ifs
  · exact List.length_set
  · rfl

theorem getElem?_fillSlot_of_ne {j i : ℕ} (c : GateCmd) (h : j ≠ i) :
    (fillSlot priority j c prm).timeSlots[i]? = prm.timeSlots[i]? := by
  unfold fillSlot
  split_ifs
  · exact List.getElem?_set_ne h
  · rfl

theorem getElem?_fillSlot_self {j : ℕ} (c : GateCmd) (h : j < prm.timeSlots.length) :
    (fillSlot priority j c prm).timeSlots[j]? =
      if gateOpen c priority then some (slotOf j c) else prm.timeSlots[j]? := by
  unfold fillSlot
  split_ifs
  · exact List.getElem?_set_self h
  · rfl

theorem length_fillSlots (j : ℕ) :
    (fillSlots priority j cmds prm).timeSlots.length = prm.timeSlots.length := by
  induction cmds generalizing j prm with
  | nil => rfl
  | cons c cs ih => exact (ih (j + 1)).trans (length_fillSlot j c)

theorem getElem?_fillSlots_before {j i : ℕ} (h : i < j) :
    (fillSlots priority j cmds prm).timeSlots[i]? = prm.timeSlots[i]? := by
  induction cmds generalizing j prm with
  | nil => rfl
  | cons c cs ih =>
    rw [fillSlots,ih (by omega)]
    exact getElem?_fillSlot_of_ne c (by omega)

/-- Slots from the first index on: those of the open entries, and what was
there before. -/
theorem getElem?_fillSlots (priority : ℕ) {j : ℕ} (i : ℕ)
    (hfits : j + cmds.length ≤ prm.timeSlots.length) :
    (fillSlots priority j cmds prm).timeSlots[j + i]? =
      match cmds[i]? with
      | some c => if gateOpen c priority then some (slotOf (j + i) c) else prm.timeSlots[j + i]?
      | none => prm.timeSlots[j + i]? := by
  induction cmds generalizing j i prm with
  | nil => rfl
  | cons c cs ih =>
    rw [List.length_cons] at hfits
    cases i with
    | zero =>
      rw [fillSlots,getElem?_fillSlots_before (by omega)]
      exact getElem?_fillSlot_self c (by omega)
    | succ i =>
      have hlength : j + 1 + cs.length ≤ (fillSlot priority j c prm).timeSlots.length := by
        rw [length_fillSlot]
        omega
      have hrest := ih i hlength
      have hindex : j + 1 + i = j + (i + 1) := by omega
      rw [hindex,getElem?_fillSlot_of_ne c (by omega)] at hrest
      exact hrest

theorem take_defragment (prm : PriorityTimeSlot) :
    (defragmentTimeSlots prm).timeSlots.take (defragmentTimeSlots prm).nLength =
      prm.timeSlots.filter isFilled :=
  List.take_left

theorem length_defragment (prm : PriorityTimeSlot) :
    (defragmentTimeSlots prm).timeSlots.length = prm.timeSlots.length := by
  have hle := List.length_filter_le isFilled prm.timeSlots
  unfold defragmentTimeSlots
  dsimp only
  rw [List.length_append,List.length_drop]
  omega

/-- The slot of an open entry. -/
def IsOpenSlot (cmds : List GateCmd) (priority : ℕ) (s : TimeSlot) : Prop :=
  ∃ j c, cmds[j]? = some c ∧ gateOpen c priority = true ∧ s = slotOf j c

/-- One more stream of the priority leaves no fewer slots in use. -/
theorem length_dueSlots_le (cmds : List GateCmd) (priority k : ℕ) :
    (dueSlots cmds priority k).length ≤ (dueSlots cmds priority (k + 1)).length := by
  induction k with
  | zero => exact Nat.zero_le _
  | succ k ih =>
    refine length_filterMap_le_of_isSome fun j hj hsome => ?_
    cases hc : cmds[j]? with
    | none =>
      rw [hc] at hsome
      cases hsome
    | some c =>
      rw [hc] at hsome
      rw [Option.bind_some] at hsome ⊢
      split_ifs at hsome ⊢
      · exact hsome
      · have hlt : j < (dueSlots cmds priority k).length := by simpa using hsome
        simpa using hlt.trans_le ih

/-- There are no more of them than entries. -/
theorem length_dueSlots_le_length (cmds : List GateCmd) (priority k : ℕ) :
    (dueSlots cmds priority k).length ≤ cmds.length := by
  cases k with
  | zero => exact Nat.zero_le _
  | succ k =>
    refine (List.length_filterMap_le _ _).trans ?_
    rw [List.length_range]

/-- One more stream brings the filled slots of the open entries. -/
theorem mem_dueSlots_succ_iff {k : ℕ} {s : TimeSlot}
    (hprev : ∀ s ∈ dueSlots cmds priority k,
      IsOpenSlot cmds priority s ∧ isFilled s = true) :
    s ∈ dueSlots cmds priority (k + 1) ↔ IsOpenSlot cmds priority s ∧ isFilled s = true := by
  rw [dueSlots,List.mem_filterMap]
  simp only [List.mem_range,Option.bind_eq_some_iff]
  constructor
  · rintro ⟨j,-,c,hc,hs⟩
    split_ifs at hs with hopen
    · obtain ⟨hslot,hfilled⟩ := Option.filter_eq_some_iff.mp hs
      exact ⟨⟨j,c,hc,hopen,(Option.some.inj hslot).symm⟩,hfilled⟩
    · exact hprev s (List.mem_of_getElem? hs)
  · rintro ⟨⟨j,c,hc,hopen,rfl⟩,hfilled⟩
    refine ⟨j,(List.getElem?_eq_some_iff.mp hc).1,c,hc,?_⟩
    rw [if_pos hopen]
    exact Option.filter_eq_some_iff.mpr ⟨rfl,hfilled⟩

/-- The slots in use are the filled slots of the open entries, however many
streams share the priority. -/
theorem mem_dueSlots_iff {s : TimeSlot} {k : ℕ} :
    s ∈ dueSlots cmds priority (k + 1) ↔ IsOpenSlot cmds priority s ∧ isFilled s = true := by
  induction k generalizing s with
  | zero => exact mem_dueSlots_succ_iff fun s hs => absurd hs List.not_mem_nil
  | succ k ih => exact mem_dueSlots_succ_iff fun s hs => ih.mp hs

/-- Slots of a priority after some of its streams. -/
structure SlotsAre (maxCmdLists : ℕ) (cmds : List GateCmd) (priority k : ℕ)
    (prm : PriorityTimeSlot) : Prop where
  /-- The array keeps its size. -/
  length : prm.timeSlots.length = maxCmdLists
  /-- The slots in use. -/
  used : prm.timeSlots.take prm.nLength = dueSlots cmds priority k
  /-- Their number. -/
  nLength : prm.nLength = (dueSlots cmds priority k).length
  /-- Behind them only indices of open entries are filled. -/
  rest : ∀ i s, prm.nLength ≤ i → prm.timeSlots[i]? = some s → isFilled s = true →
    ∃ c, cmds[i]? = some c ∧ gateOpen c priority = true

section OneStream

variable {maxCmdLists k : ℕ}

/-- At the index of a closed entry stands a slot in use, or nothing filled. -/
theorem SlotsAre.filter_closed (h : SlotsAre maxCmdLists cmds priority k prm) {i : ℕ}
    (hclosed : ∀ c, cmds[i]? = some c → gateOpen c priority = false) :
    (prm.timeSlots[i]?).filter isFilled = (dueSlots cmds priority k)[i]? := by
  by_cases hi : i < prm.nLength
  · rw [← h.used,List.getElem?_take_of_lt hi]
    cases hs : prm.timeSlots[i]? with
    | none => rfl
    | some s =>
      refine Option.filter_eq_some_iff.mpr ⟨rfl,?_⟩
      have hmem : s ∈ dueSlots cmds priority k := by
        rw [← h.used]
        exact List.mem_of_getElem? ((List.getElem?_take_of_lt hi).trans hs)
      cases k with
      | zero => exact absurd hmem List.not_mem_nil
      | succ k => exact (mem_dueSlots_iff.mp hmem).2
  · have hnone : (dueSlots cmds priority k)[i]? = none :=
      List.getElem?_eq_none (by rw [← h.nLength]; omega)
    rw [hnone,Option.filter_eq_none_iff]
    intro s hs hfilled
    obtain ⟨c,hc,hopen⟩ := h.rest i s (by omega) hs hfilled
    rw [hclosed c hc] at hopen
    cases hopen

/-- What the array holds at an index, as far as it is filled, once the slots of
one more stream are written. -/
theorem SlotsAre.filled (h : SlotsAre maxCmdLists cmds priority k prm)
    (hfits : cmds.length ≤ maxCmdLists) (i : ℕ) :
    ((fillSlots priority 0 cmds prm).timeSlots[i]?).filter isFilled =
      cmds[i]?.bind fun c =>
        if gateOpen c priority then (some (slotOf i c)).filter isFilled
        else (dueSlots cmds priority k)[i]? := by
  have hread := getElem?_fillSlots priority i
    (by rw [h.length]; omega : 0 + cmds.length ≤ prm.timeSlots.length)
  rw [Nat.zero_add] at hread
  rw [hread]
  cases hc : cmds[i]? with
  | none =>
    have hclosed : ∀ c, cmds[i]? = some c → gateOpen c priority = false := by
      intro c h'
      rw [hc] at h'
      cases h'
    have hle := length_dueSlots_le_length cmds priority k
    have hi := List.getElem?_eq_none_iff.mp hc
    exact (h.filter_closed hclosed).trans (List.getElem?_eq_none (by omega))
  | some c =>
    dsimp only [Option.bind_some]
    split_ifs with hopen
    · rfl
    · refine h.filter_closed fun c' h' => ?_
      obtain rfl : c = c' := Option.some.inj (hc.symm.trans h')
      exact Bool.eq_false_iff.mpr hopen

/-- Moving the filled slots together leaves those of one more stream in use. -/
theorem SlotsAre.filter_fillSlots (h : SlotsAre maxCmdLists cmds priority k prm)
    (hfits : cmds.length ≤ maxCmdLists) :
    (fillSlots priority 0 cmds prm).timeSlots.filter isFilled =
      dueSlots cmds priority (k + 1) := by
  obtain ⟨d,hd⟩ := Nat.exists_eq_add_of_le hfits
  rw [filter_eq_filterMap_range,length_fillSlots,h.length,hd,List.range_add,List.filterMap_append]
  have hbehind : ((List.range d).map (cmds.length + ·)).filterMap
      (fun i => ((fillSlots priority 0 cmds prm).timeSlots[i]?).filter isFilled) = [] := by
    rw [List.filterMap_eq_nil_iff]
    intro i hi
    obtain ⟨j,-,rfl⟩ := List.mem_map.mp hi
    rw [h.filled hfits,List.getElem?_eq_none (Nat.le_add_right _ _)]
    rfl
  rw [hbehind,List.append_nil,dueSlots]
  exact List.filterMap_congr fun i _ => h.filled hfits i

/-- One more stream of the priority. -/
theorem SlotsAre.addStream (h : SlotsAre maxCmdLists cmds priority k prm)
    (hfits : cmds.length ≤ maxCmdLists) :
    SlotsAre maxCmdLists cmds priority (k + 1)
      (defragmentTimeSlots (fillSlots priority 0 cmds prm)) := by
  have hfilter := h.filter_fillSlots hfits
  have hlength : (defragmentTimeSlots (fillSlots priority 0 cmds prm)).nLength =
      (dueSlots cmds priority (k + 1)).length := congrArg List.length hfilter
  refine ⟨?_,?_,hlength,?_⟩
  · rw [length_defragment,length_fillSlots,h.length]
  · rw [take_defragment,hfilter]
  · intro i s hi hs hfilled
    -- behind the slots moved together the array is as it was filled
    have hold : (fillSlots priority 0 cmds prm).timeSlots[i]? = some s := by
      unfold defragmentTimeSlots at hs hi
      dsimp only at hs hi
      rw [List.getElem?_append_right hi,List.getElem?_drop,Nat.add_sub_cancel' hi] at hs
      exact hs
    have hread := h.filled hfits i
    rw [hold,Option.filter_eq_some_iff.mpr ⟨rfl,hfilled⟩] at hread
    obtain ⟨c,hc,hslot⟩ := Option.bind_eq_some_iff.mp hread.symm
    refine ⟨c,hc,?_⟩
    by_contra hopen
    rw [if_neg hopen] at hslot
    have hlt := (List.getElem?_eq_some_iff.mp hslot).1
    have hmore := length_dueSlots_le cmds priority k
    omega

end OneStream

theorem isFilled_zero : isFilled ⟨0,0⟩ = false := rfl

/-- The zeroed context. -/
theorem slotsAre_zeroed (maxCmdLists : ℕ) (stats : Fin priorityMax → StatsInfo)
    (p : Fin priorityMax) :
    SlotsAre maxCmdLists cmds p 0 ((zeroed maxCmdLists stats).exptTimeSlots p) := by
  refine ⟨List.length_replicate,rfl,rfl,?_⟩
  intro i s _ hs hfilled
  rw [List.eq_of_mem_replicate (List.mem_of_getElem? hs),isFilled_zero] at hfilled
  cases hfilled

/-- A product of 32-bit words, widened. -/
theorem toNat_slotTime (j : ℕ) (c : GateCmd) :
    ((BitVec.ofNat 32 j * c.timeInterval).setWidth 64).toNat =
      j * c.timeInterval.toNat % 2 ^ 32 := by
  have hlt : j * c.timeInterval.toNat % 2 ^ 32 < 2 ^ 32 := Nat.mod_lt _ (by omega)
  rw [BitVec.toNat_setWidth,BitVec.toNat_mul,BitVec.toNat_ofNat,Nat.mod_mul_mod]
  exact Nat.mod_eq_of_lt (hlt.trans (by omega))

theorem filled_slotOf_iff (j : ℕ) (c : GateCmd) :
    isFilled (slotOf j c) = true ↔ 0 < (j + 1) * c.timeInterval.toNat % 2 ^ 32 := by
  unfold isFilled slotOf
  rw [decide_eq_true_iff,BitVec.lt_def,toNat_slotTime]
  rfl

theorem start_slotOf_le_iff (j : ℕ) (c : GateCmd) (time : BitVec 64) :
    (slotOf j c).start ≤ time ↔ j * c.timeInterval.toNat % 2 ^ 32 ≤ time.toNat := by
  rw [BitVec.le_def]
  unfold slotOf
  rw [toNat_slotTime]

theorem le_end_slotOf_iff (j : ℕ) (c : GateCmd) (time : BitVec 64) :
    time ≤ (slotOf j c).endTime ↔ time.toNat ≤ (j + 1) * c.timeInterval.toNat % 2 ^ 32 := by
  rw [BitVec.le_def]
  unfold slotOf
  rw [toNat_slotTime]

end Slots

section Streams

variable {list : ControlList} {ctx : Ctx} {p : Fin priorityMax} {maxCmdLists : ℕ}

/-- Slots of a priority after the remaining streams. -/
theorem slotsAre_addStreams {k : ℕ} (hfits : list.gateCmdList.length ≤ maxCmdLists)
    (streams : List (Fin priorityMax))
    (h : SlotsAre maxCmdLists list.gateCmdList p k (ctx.exptTimeSlots p)) :
    SlotsAre maxCmdLists list.gateCmdList p (k + streams.count p)
      ((addStreams list ctx streams).exptTimeSlots p) := by
  induction streams generalizing ctx k with
  | nil => exact h
  | cons q streams ih =>
    change SlotsAre _ _ _ _ ((addStreams list (addStream list ctx q) streams).exptTimeSlots p)
    by_cases hpq : p = q
    · subst hpq
      have hnext : SlotsAre maxCmdLists list.gateCmdList p (k + 1)
          ((addStream list ctx p).exptTimeSlots p) := by
        unfold EstClassifier.addStream
        dsimp only
        rw [update_self]
        exact h.addStream hfits
      have hcount : k + (p :: streams).count p = k + 1 + streams.count p := by
        rw [List.count_cons_self]
        omega
      rw [hcount]
      exact ih hnext
    · have hnext : SlotsAre maxCmdLists list.gateCmdList p k
          ((addStream list ctx q).exptTimeSlots p) := by
        unfold EstClassifier.addStream
        dsimp only
        rw [update_of_ne hpq]
        exact h
      rw [List.count_cons_of_ne (Ne.symm hpq)]
      exact ih hnext

/-- Slots that are all printed behind `n` characters. -/
theorem printSlots_iff {n : ℕ} (hn : n < maxLogLen) (ss : List TimeSlot) :
    printSlots n ss = true ↔ n + (ss.map fun s => (slotText s).length).sum < maxLogLen := by
  induction ss generalizing n with
  | nil => exact iff_of_true rfl hn
  | cons s ss ih =>
    rw [printSlots,Bool.and_eq_true,decide_eq_true_iff,List.map_cons,List.sum_cons,← Nat.add_assoc]
    constructor
    · rintro ⟨hs,hrest⟩
      exact (ih hs).mp hrest
    · intro h
      have hs : n + (slotText s).length < maxLogLen := by omega
      exact ⟨hs,(ih hs).mpr h⟩

theorem headText_lt (p : Fin priorityMax) : (headText p).length < maxLogLen := by
  have hall : ∀ p : Fin priorityMax, (headText p).length < maxLogLen := by decide
  exact hall p

/-- A listener starts exactly when the slots of all its streams can be printed. -/
theorem listening_eq_some_iff (hfits : list.gateCmdList.length ≤ maxCmdLists)
    (streams : List (Fin priorityMax)) (stats : Fin priorityMax → StatsInfo) :
    listening maxCmdLists list streams stats = some ctx ↔
      Printable list.gateCmdList streams ∧
        ctx = addStreams list (zeroed maxCmdLists stats) streams := by
  have hprint : ∀ p : Fin priorityMax,
      printStream (addStreams list (zeroed maxCmdLists stats) streams) p = true ↔
        (headText p).length +
          ((dueSlots list.gateCmdList p (streams.count p)).map fun s =>
            (slotText s).length).sum < maxLogLen := by
    intro p
    have hslots := slotsAre_addStreams hfits streams (slotsAre_zeroed maxCmdLists stats p)
    rw [Nat.zero_add] at hslots
    rw [printStream,hslots.used]
    exact printSlots_iff (headText_lt p) _
  have hall : streams.all (printStream (addStreams list (zeroed maxCmdLists stats) streams)) =
      true ↔ Printable list.gateCmdList streams := by
    rw [List.all_eq_true]
    exact forall₂_congr fun p _ => hprint p
  unfold listening calcExpectedTimeSlot
  split_ifs with h
  · rw [Option.some.injEq,eq_comm,and_iff_right (hall.mp h)]
  · exact iff_of_false (fun hno => nomatch hno) fun hno => h (hall.mpr hno.1)

/-- The slots of a listener hold a time exactly when a stream has the
priority and the time lies in the window of an open entry. -/
theorem inSlots_listening_iff (hfits : list.gateCmdList.length ≤ maxCmdLists)
    (streams : List (Fin priorityMax)) (stats : Fin priorityMax → StatsInfo)
    (time : BitVec 64) :
    inSlots ((addStreams list (zeroed maxCmdLists stats) streams).exptTimeSlots p) time = true ↔
      p ∈ streams ∧ InWindow list.gateCmdList p time.toNat := by
  have hslots := slotsAre_addStreams hfits streams (slotsAre_zeroed maxCmdLists stats p)
  rw [Nat.zero_add] at hslots
  unfold inSlots
  rw [hslots.used,List.any_eq_true]
  constructor
  · rintro ⟨s,hs,htime⟩
    have hmem : p ∈ streams := by
      by_contra hno
      rw [List.count_eq_zero.mpr hno] at hs
      exact List.not_mem_nil hs
    obtain ⟨k,hk⟩ := Nat.exists_eq_succ_of_ne_zero (List.count_pos_iff.mpr hmem).ne'
    rw [hk] at hs
    obtain ⟨⟨j,c,hc,hopen,rfl⟩,hfilled⟩ := mem_dueSlots_iff.mp hs
    rw [Bool.and_eq_true,decide_eq_true_iff,decide_eq_true_iff] at htime
    exact ⟨hmem,j,c,hc,hopen,(filled_slotOf_iff j c).mp hfilled,
      (start_slotOf_le_iff j c time).mp htime.1,(le_end_slotOf_iff j c time).mp htime.2⟩
  · rintro ⟨hmem,j,c,hc,hopen,hpos,hstart,hend⟩
    obtain ⟨k,hk⟩ := Nat.exists_eq_succ_of_ne_zero (List.count_pos_iff.mpr hmem).ne'
    rw [hk]
    refine ⟨slotOf j c,mem_dueSlots_iff.mpr
      ⟨⟨j,c,hc,hopen,rfl⟩,(filled_slotOf_iff j c).mpr hpos⟩,?_⟩
    rw [Bool.and_eq_true,decide_eq_true_iff,decide_eq_true_iff]
    exact ⟨(start_slotOf_le_iff j c time).mpr hstart,(le_end_slotOf_iff j c time).mpr hend⟩

/-- The offset in the cycle as the handler computes it. -/
theorem toNat_timeSlot {pkt : Packet} (hbase : list.baseTime ≤ pkt.rxts) :
    ((pkt.rxts - list.baseTime) % list.cycleTime).toNat = cycleOffset list pkt := by
  have hle : list.baseTime.toNat ≤ pkt.rxts.toNat := hbase
  rw [BitVec.toNat_umod,BitVec.toNat_sub_of_le hbase]
  rfl

theorem countGood_ne_countBad (s : StatsInfo) : countGood s ≠ countBad s := by
  intro h
  have hgood := congrArg (fun t => t.nGoodPkt.toNat) h
  have hlt := s.nGoodPkt.isLt
  simp only [countGood,countBad,BitVec.toNat_add,BitVec.ofNat_eq_ofNat,BitVec.toNat_ofNat] at hgood
  omega

/-- A packet of a priority in range is counted once, by the slots. -/
theorem handler_of_lt (ctx : Ctx) {pkt : Packet} (h : pkt.tcid < priorityMax)
    (hcycle : list.cycleTime ≠ 0) :
    ∃ r, rxPacketHandler list ctx pkt = some r ∧ r.indices = [pkt.tcid] ∧
      r.ctx.estStatsInfo = update ctx.estStatsInfo ⟨pkt.tcid,h⟩
        ((if inSlots (ctx.exptTimeSlots ⟨pkt.tcid,h⟩)
            ((pkt.rxts - list.baseTime) % list.cycleTime) then countGood else countBad)
          (ctx.estStatsInfo ⟨pkt.tcid,h⟩)) := by
  unfold rxPacketHandler
  rw [dif_pos h,if_neg hcycle]
  exact ⟨_,rfl,rfl,rfl⟩

/-- A packet of a priority in range is classified exactly when its slots hold
its time just when the schedule has its gate open. -/
theorem classified_of_lt_iff {streams : List (Fin priorityMax)} {pkt : Packet}
    (h : pkt.tcid < priorityMax) (hcycle : list.cycleTime ≠ 0) :
    Classified list streams ctx pkt ↔
      (inSlots (ctx.exptTimeSlots ⟨pkt.tcid,h⟩)
          ((pkt.rxts - list.baseTime) % list.cycleTime) = true ↔
        (⟨pkt.tcid,h⟩ : Fin priorityMax) ∈ streams ∧
          ActiveOpen list.gateCmdList pkt.tcid (cycleOffset list pkt)) := by
  obtain ⟨r,hr,hindices,hstats⟩ := handler_of_lt ctx h hcycle
  have hself : r.ctx.estStatsInfo ⟨pkt.tcid,h⟩ =
      (if inSlots (ctx.exptTimeSlots ⟨pkt.tcid,h⟩)
          ((pkt.rxts - list.baseTime) % list.cycleTime) then countGood else countBad)
        (ctx.estStatsInfo ⟨pkt.tcid,h⟩) := by
    rw [hstats,update_self]
  constructor
  · rintro ⟨r',hr',-,-,hcount⟩
    have hsame : r' = r := Option.some.inj (hr'.symm.trans hr)
    subst hsame
    obtain ⟨hgood,hbad⟩ := hcount ⟨pkt.tcid,h⟩ rfl
    rw [hself] at hgood hbad
    constructor
    · intro hin
      by_contra hdue
      have heq := hbad hdue
      rw [if_pos hin] at heq
      exact countGood_ne_countBad _ heq
    · intro hdue
      by_contra hin
      have heq := hgood hdue
      rw [if_neg hin] at heq
      exact countGood_ne_countBad _ heq.symm
  · intro hiff
    refine ⟨r,hr,?_,?_,?_⟩
    · intro i hi
      rw [hindices,List.mem_singleton] at hi
      rw [hi]
      exact h
    · intro q hq
      rw [hstats]
      exact update_of_ne (fun heq => hq (by rw [heq])) _ _
    · rintro ⟨p,hp⟩ rfl
      rw [hself]
      exact ⟨fun hdue => by rw [if_pos (hiff.mpr hdue)],
        fun hdue => by rw [if_neg fun hin => hdue (hiff.mp hin)]⟩

end Streams

section Windows

variable {cmds : List GateCmd} {priority interval time : ℕ}

theorem elapsed_succ {j : ℕ} {c : GateCmd} (h : cmds[j]? = some c) :
    elapsed cmds (j + 1) = elapsed cmds j + c.timeInterval.toNat := by
  unfold elapsed
  rw [List.take_add_one,h]
  simp

/-- With equal intervals the entries start at multiples of the interval. -/
theorem elapsed_of_equal (h : ∀ c ∈ cmds, c.timeInterval.toNat = interval) {j : ℕ}
    (hj : j ≤ cmds.length) : elapsed cmds j = j * interval := by
  induction j with
  | zero => simp [elapsed]
  | succ j ih =>
    have hget := List.getElem?_eq_getElem (show j < cmds.length by omega)
    rw [elapsed_succ hget,ih (by omega),h _ (List.getElem_mem _),Nat.succ_mul]

/-- With equal intervals that fit a word, the windows are the schedule and
the instants at which an open entry ends. -/
theorem inWindow_iff_of_equal (h : ∀ c ∈ cmds, c.timeInterval.toNat = interval)
    (hpos : 0 < interval) (hfits : cmds.length * interval < 2 ^ 32) :
    InWindow cmds priority time ↔
      ActiveOpen cmds priority time ∨
        ∃ j c, cmds[j]? = some c ∧ gateOpen c priority = true ∧ time = (j + 1) * interval := by
  have hbounds : ∀ j c, cmds[j]? = some c →
      c.timeInterval.toNat = interval ∧ elapsed cmds j = j * interval ∧
      elapsed cmds (j + 1) = (j + 1) * interval ∧ 0 < (j + 1) * interval ∧
      j * interval % 2 ^ 32 = j * interval ∧
      (j + 1) * interval % 2 ^ 32 = (j + 1) * interval := by
    intro j c hc
    obtain ⟨hj,hget⟩ := List.getElem?_eq_some_iff.mp hc
    have hle : (j + 1) * interval ≤ cmds.length * interval := Nat.mul_le_mul_right _ hj
    have hle' : j * interval ≤ (j + 1) * interval := Nat.mul_le_mul_right _ (Nat.le_succ j)
    exact ⟨h c (hget ▸ List.getElem_mem hj),elapsed_of_equal h hj.le,elapsed_of_equal h hj,
      Nat.mul_pos (Nat.succ_pos j) hpos,Nat.mod_eq_of_lt (by omega),Nat.mod_eq_of_lt (by omega)⟩
  constructor
  · rintro ⟨j,c,hc,hopen,-,hstart,hend⟩
    obtain ⟨hint,hfrom,hto,-,hmod,hmod'⟩ := hbounds j c hc
    rw [hint,hmod] at hstart
    rw [hint,hmod'] at hend
    rcases Nat.lt_or_eq_of_le hend with hlt | heq
    · exact Or.inl ⟨j,c,hc,by omega,by omega,hopen⟩
    · exact Or.inr ⟨j,c,hc,hopen,heq⟩
  · rintro (⟨j,c,hc,hfrom,hto,hopen⟩ | ⟨j,c,hc,hopen,rfl⟩)
    · obtain ⟨hint,hfrom',hto',hpos',hmod,hmod'⟩ := hbounds j c hc
      refine ⟨j,c,hc,hopen,?_,?_,?_⟩
      · rw [hint,hmod']
        exact hpos'
      · rw [hint,hmod]
        omega
      · rw [hint,hmod']
        omega
    · obtain ⟨hint,-,-,hpos',hmod,hmod'⟩ := hbounds j c hc
      refine ⟨j,c,hc,hopen,?_,?_,?_⟩
      · rw [hint,hmod']
        exact hpos'
      · rw [hint,hmod]
        exact Nat.mul_le_mul_right _ (Nat.le_succ j)
      · rw [hint,hmod']

end Windows

/-- The listener starts, and classifies the packet. -/
def StartsAndClassifies (maxCmdLists : ℕ) (list : ControlList)
    (streams : List (Fin priorityMax)) (stats : Fin priorityMax → StatsInfo) (pkt : Packet) :
    Prop :=
  ∃ ctx, listening maxCmdLists list streams stats = some ctx ∧ Classified list streams ctx pkt

/-- For every gate control list, every list of streams and every packet
received at or after the base time, the listener starts and classifies the packet
by the schedule exactly when the slots of every stream can be printed, the
packet's priority is in range, the cycle is not empty, and, for the priority of a
stream, its time lies in the window of an open entry just when the entry active
then is open. -/
theorem classified_iff {maxCmdLists : ℕ} (list : ControlList) (streams : List (Fin priorityMax))
    (stats : Fin priorityMax → StatsInfo) (pkt : Packet)
    (hfits : list.gateCmdList.length ≤ maxCmdLists) (hbase : list.baseTime ≤ pkt.rxts) :
    StartsAndClassifies maxCmdLists list streams stats pkt ↔
      Printable list.gateCmdList streams ∧ pkt.tcid < priorityMax ∧ list.cycleTime ≠ 0 ∧
      ∀ p : Fin priorityMax, p.val = pkt.tcid → p ∈ streams →
        (InWindow list.gateCmdList p (cycleOffset list pkt) ↔
          ActiveOpen list.gateCmdList p (cycleOffset list pkt)) := by
  have hstart : StartsAndClassifies maxCmdLists list streams stats pkt ↔
      Printable list.gateCmdList streams ∧
        Classified list streams (addStreams list (zeroed maxCmdLists stats) streams) pkt := by
    unfold StartsAndClassifies
    simp only [listening_eq_some_iff hfits,and_assoc,exists_and_left,exists_eq_left]
  rw [hstart,and_congr_right_iff]
  intro _
  by_cases h : pkt.tcid < priorityMax
  · by_cases hcycle : list.cycleTime = 0
    · refine iff_of_false ?_ fun hr => hr.2.1 hcycle
      rintro ⟨r,hr,-⟩
      unfold rxPacketHandler at hr
      rw [dif_pos h,if_pos hcycle] at hr
      cases hr
    · rw [classified_of_lt_iff h hcycle,inSlots_listening_iff hfits,toNat_timeSlot hbase,
        and_congr_right_iff]
      constructor
      · rintro hiff
        refine ⟨h,hcycle,?_⟩
        rintro ⟨p,hp⟩ rfl
        exact hiff
      · rintro ⟨-,-,hiff⟩
        exact hiff ⟨pkt.tcid,h⟩ rfl
  · refine iff_of_false ?_ fun hr => h hr.1
    rintro ⟨r,hr,hindices,-⟩
    unfold rxPacketHandler at hr
    rw [dif_neg h] at hr
    cases hr
    exact h (hindices pkt.tcid List.mem_cons_self)

/-- A list whose first entry opens the gate of priority 0 and whose second
closes all gates. -/
def halfOpen : ControlList where
  baseTime := 0
  cycleTime := 124000
  gateCmdList := [⟨1,62000⟩,⟨0,62000⟩]

theorem priorityMax_pos : 0 < priorityMax := by
  unfold priorityMax
  omega

/-- Priority 0. -/
def lowest : Fin priorityMax := ⟨0,priorityMax_pos⟩

/-- Two streams share the priority, and a packet arrives in the open half of the
second cycle. -/
theorem classified_iff_in_open_half :
    StartsAndClassifies 2 halfOpen [lowest,lowest] (fun _ => ⟨0,0⟩) ⟨0,124010⟩ := by
  refine (classified_iff halfOpen [lowest,lowest] _ ⟨0,124010⟩ (by decide) (by decide)).mpr
    ⟨by decide,by decide,by decide,?_⟩
  rintro ⟨p,hp⟩ rfl -
  have hequal : ∀ c ∈ halfOpen.gateCmdList, c.timeInterval.toNat = 62000 := by decide
  rw [inWindow_iff_of_equal hequal (by omega) (by decide)]
  -- 10 is not the end of an entry
  refine or_iff_left_of_imp ?_
  rintro ⟨j,c,-,-,hend⟩
  have htime : cycleOffset halfOpen ⟨0,124010⟩ = 10 := by decide
  omega

/-- Eleven open entries of the same length. -/
def elevenOpen : ControlList where
  baseTime := 0
  cycleTime := 682000
  gateCmdList := List.replicate 11 ⟨1,62000⟩

/-- A packet at the instant at which its gate closes is counted as good. With
eleven open entries the listener does not start. -/
theorem packet_at_closing_gate_good :
    (∀ c ∈ halfOpen.gateCmdList, 0 < c.timeInterval.toNat) ∧
    halfOpen.cycleTime.toNat = elapsed halfOpen.gateCmdList halfOpen.gateCmdList.length ∧
    ¬ StartsAndClassifies 2 halfOpen [lowest] (fun _ => ⟨0,0⟩) ⟨0,62000⟩ ∧
    (listening 11 elevenOpen [lowest] fun _ => ⟨0,0⟩).isNone = true := by
  refine ⟨by decide,by decide,?_,by decide⟩
  rintro ⟨ctx,hctx,hclass⟩
  obtain ⟨-,rfl⟩ := (listening_eq_some_iff (by decide) _ _).mp hctx
  have hlt : (⟨0,62000⟩ : Packet).tcid < priorityMax := by decide
  rw [classified_of_lt_iff hlt (by decide)] at hclass
  obtain ⟨-,j,c,hc,hfrom,hto,hopen⟩ := hclass.mp rfl
  match j with
  | 0 => exact absurd hto (by decide)
  | 1 =>
    cases hc
    exact absurd hopen (by decide)
  | j + 2 => cases hc

end EthernetFirmware.EstClassifier
