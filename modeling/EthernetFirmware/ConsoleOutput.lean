import Mathlib.Data.Nat.Digits.Lemmas
import EthernetFirmware.CioLines

/-!
# Console output of all cores

Every core prints into its own log ring: through its standard output, or by
a call of the print function, which puts the time before the text and cuts
what does not fit its buffer. One task reads the rings in turn, a ring until
it finds it empty, and hands each line to the output device with the core it
is from. A round of that task takes one string out of one ring; the cores
may print between the rounds.
-/

namespace EthernetFirmware.ConsoleOutput

open Function RemoteConfig GuardedRuns LogRing
open CioLines (Cio Call cio collect Holds)

/-- `APP_LOG_BUF_MAX`. -/
def appLogBufMax : ℕ := 1024

/-- Decimal digits of a number. -/
def decimal (k : ℕ) : List U8 :=
  if k = 0 then [48#8] else ((Nat.digits 10 k).reverse.map fun d => BitVec.ofNat 8 (48 + d))

/-- Decimal digits of a signed number. -/
def signedDecimal (x : U32) : List U8 :=
  if x.toInt < 0 then 45#8 :: decimal x.toInt.natAbs else decimal x.toInt.natAbs

/-- Text filled up to a width. -/
def padded (width : ℕ) (fill : U8) (text : List U8) : List U8 :=
  List.replicate (width - text.length) fill ++ text

/-- The time as `appLogPrintf` puts it before a text, from `cur_time`. -/
def stamp (curTime : BitVec 64) : List U8 :=
  padded 6 32#8 (signedDecimal ((curTime / 1000000#64).setWidth 32)) ++ 46#8 ::
    (padded 6 48#8 (decimal (curTime % 1000000#64).toNat) ++ [32#8,115#8,58#8,32#8])

section Stamps

variable {k : ℕ} {c : U8}

/-- A digit, a sign or a filling is no terminator of a string. -/
theorem ne_zero_of_mem_decimal (h : c ∈ decimal k) : c ≠ 0#8 := by
  unfold decimal at h
  split at h
  · rw [List.mem_singleton] at h
    subst h
    decide
  · obtain ⟨d,hd,rfl⟩ := List.mem_map.mp h
    have hlt : d < 10 := Nat.digits_lt_base (by omega) (List.mem_reverse.mp hd)
    intro h0
    have hval := congrArg BitVec.toNat h0
    rw [BitVec.toNat_ofNat,Nat.mod_eq_of_lt (by omega)] at hval
    simp at hval

theorem ne_zero_of_mem_signedDecimal {x : U32} (h : c ∈ signedDecimal x) : c ≠ 0#8 := by
  unfold signedDecimal at h
  split at h
  · rcases List.mem_cons.mp h with rfl | h
    · decide
    · exact ne_zero_of_mem_decimal h
  · exact ne_zero_of_mem_decimal h

theorem mem_padded {width : ℕ} {fill : U8} {text : List U8} (h : c ∈ padded width fill text) :
    c = fill ∨ c ∈ text := by
  rcases List.mem_append.mp h with h | h
  · exact Or.inl (List.eq_of_mem_replicate h)
  · exact Or.inr h

theorem length_padded (width : ℕ) (fill : U8) (text : List U8) :
    (padded width fill text).length = max width text.length := by
  unfold padded
  rw [List.length_append,List.length_replicate]
  omega

theorem length_decimal_le {w : ℕ} (hw : 0 < w) (h : k < 10 ^ w) : (decimal k).length ≤ w := by
  unfold decimal
  split
  · exact hw
  · rw [List.length_map,List.length_reverse]
    exact (Nat.digits_length_le_iff (by omega) k).mpr h

theorem zero_not_mem_stamp (curTime : BitVec 64) : 0#8 ∉ stamp curTime := by
  intro h
  unfold stamp at h
  rcases List.mem_append.mp h with h | h
  · rcases mem_padded h with h | h
    · revert h
      decide
    · exact ne_zero_of_mem_signedDecimal h rfl
  · rcases List.mem_cons.mp h with h | h
    · revert h
      decide
    rcases List.mem_append.mp h with h | h
    · rcases mem_padded h with h | h
      · revert h
        decide
      · exact ne_zero_of_mem_decimal h rfl
    · revert h
      decide

/-- A stamp takes at most 22 characters. -/
theorem length_stamp_le (curTime : BitVec 64) : (stamp curTime).length ≤ 22 := by
  have hsec : (signedDecimal ((curTime / 1000000#64).setWidth 32)).length ≤ 11 := by
    unfold signedDecimal
    have habs : ((curTime / 1000000#64).setWidth 32).toInt.natAbs < 10 ^ 10 := by
      have hlow := BitVec.le_toInt ((curTime / 1000000#64).setWidth 32)
      have hhigh := BitVec.toInt_lt (x := (curTime / 1000000#64).setWidth 32)
      omega
    have hdigits := length_decimal_le (by omega) habs
    split
    · rw [List.length_cons]
      omega
    · omega
  have hfrac : (decimal (curTime % 1000000#64).toNat).length ≤ 6 := by
    refine length_decimal_le (by omega) ?_
    rw [BitVec.toNat_umod]
    exact Nat.mod_lt _ (by decide)
  unfold stamp
  rw [List.length_append,List.length_cons,List.length_append,length_padded,length_padded]
  simp only [List.length_cons,List.length_nil]
  omega

end Stamps

/-- `appLogPrintf`: what it puts into the buffer, from the text that the
format gives. The stamp is never longer than the buffer. -/
def appLogPrintf (curTime : BitVec 64) (text : Message) : Message :=
  ⟨stamp curTime ++ text.val.take (appLogBufMax - (stamp curTime).length - 1),fun h => by
    rcases List.mem_append.mp h with h | h
    · exact zero_not_mem_stamp curTime h
    · exact text.property (List.mem_of_mem_take h)⟩

theorem length_appLogPrintf (curTime : BitVec 64) (text : Message) :
    (appLogPrintf curTime text).val.length < appLogBufMax := by
  have hstamp := length_stamp_le curTime
  unfold appLogPrintf appLogBufMax
  rw [List.length_append,List.length_take]
  omega

/-- A core that prints. -/
structure Core where
  /-- Its standard output. -/
  cio : Cio
  /-- Its log ring. -/
  ring : LogRing.State

/-- The cores and the task that reads their rings. -/
structure Console (cpus : ℕ) where
  /-- The cores. -/
  cores : Fin cpus → Core
  /-- `cpu_id` of the reading task. -/
  cpuId : ℕ
  /-- Lines given to the output device, with the core, oldest first. -/
  output : List (Fin cpus × List U8)

/-- What a core calls: its standard output, or the print function with some
text. -/
inductive CoreCall where
  | cio (e : Call)
  | print (text : Message)

/-- Steps of the system. -/
inductive Event (cpus : ℕ) where
  /-- A call at some time. -/
  | core (i : Fin cpus) (curTime : BitVec 64) (e : CoreCall)
  /-- A round of the reading task. -/
  | read

variable {cpus : ℕ} (n : ℕ) (vsnprintf : Message → Message)

/-- What a core prints in a call; `vsnprintf` makes the text from the format
that the standard output passes on. -/
def coreText (d : Cio) : CoreCall → Option Message × Cio
  | .cio e => ((cio d e).1.map vsnprintf,(cio d e).2)
  | .print text => (some text,d)

/-- A core after a call. -/
def coreStep (core : Core) (curTime : BitVec 64) (e : CoreCall) : Core :=
  let r := coreText vsnprintf core.cio e
  match r.1 with
  | some text => ⟨r.2,LogRing.step n core.ring (.put (appLogPrintf curTime text))⟩
  | none => ⟨r.2,core.ring⟩

/-- A round of `appLogRdRun`. -/
def readRound (s : Console cpus) : Console cpus :=
  if h : s.cpuId < cpus then
    let core := s.cores ⟨s.cpuId,h⟩
    if core.ring.log.areaIsValid then
      let r := getString n core.ring.log appLogBufMax
      { cores := update s.cores ⟨s.cpuId,h⟩
          ⟨core.cio,LogRing.step n core.ring (.get appLogBufMax)⟩
        cpuId := if r.numBytes = 0 then s.cpuId + 1 else s.cpuId
        output := if r.str = [] then s.output else s.output ++ [(⟨s.cpuId,h⟩,r.str)] }
    else { s with cpuId := s.cpuId + 1 }
  else { s with cpuId := 0 }

/-- State of the system after a step. -/
def consoleStep (s : Console cpus) : Event cpus → Console cpus
  | .core i curTime e =>
    { s with cores := update s.cores i (coreStep n vsnprintf (s.cores i) curTime e) }
  | .read => readRound n s

/-- The books of a core: what its standard output waits with and the
messages that must arrive, oldest first. -/
structure Books where
  /-- Text without the end of its line. -/
  pending : Message
  /-- Messages. -/
  messages : List Message

/-- Message that a call adds to the books. -/
def due (b : Books) (curTime : BitVec 64) : CoreCall → Option Message
  | .cio e => (collect b.pending e).1.map fun text => appLogPrintf curTime (vsnprintf text)
  | .print text => some (appLogPrintf curTime text)

/-- The books after a call. -/
def note (b : Books) (curTime : BitVec 64) (e : CoreCall) : Books where
  pending := match e with
    | .cio e => (collect b.pending e).2
    | .print _ => b.pending
  messages := b.messages ++ (due vsnprintf b curTime e).toList

/-- The system and the books of all cores. -/
structure World (cpus : ℕ) where
  /-- The system. -/
  console : Console cpus
  /-- The books. -/
  books : Fin cpus → Books

/-- State after a step. -/
def step (w : World cpus) (e : Event cpus) : World cpus where
  console := consoleStep n vsnprintf w.console e
  books := match e with
    | .core i curTime e => update w.books i (note vsnprintf (w.books i) curTime e)
    | .read => w.books

/-- Empty rings at any place, with any memory. -/
def startUp (place : Fin cpus → Fin n) (valid : Fin cpus → Bool) (mem : Fin cpus → ℕ → U8) :
    World cpus where
  console := ⟨fun i => ⟨CioLines.start (mem i),LogRing.start (place i) (valid i) (mem i)⟩,0,[]⟩
  books := fun _ => ⟨CioLines.emptyMessage,[]⟩

/-- Lines that the output device got from a core. -/
def linesOf (i : Fin cpus) (output : List (Fin cpus × List U8)) : List (List U8) :=
  output.filterMap fun x => if x.1 = i then some x.2 else none

/-- Lines of messages. -/
def linesDue (b : Books) : List (List U8) := b.messages.flatMap fun m => segments m.val

/-- Every line that is due was given to the output device or is in the ring,
once and in order. -/
def Complete (w : World cpus) : Prop :=
  ∀ i, linesOf i w.console.output ++ segments (stored n (w.console.cores i).ring.log) =
    linesDue (w.books i)

/-- The ring of a core is set up and has room for what the call prints, its
terminator and a free byte. -/
def HasRoom (w : World cpus) : Event cpus → Prop
  | .core i curTime e => ∀ m, due vsnprintf (w.books i) curTime e = some m →
    (w.console.cores i).ring.log.areaIsValid = true ∧
      (stored n (w.console.cores i).ring.log).length + m.val.length + 1 < n
  | .read => True

/-- What the system keeps of a core. -/
structure CoreInv (w : World cpus) (i : Fin cpus) (l : List U8) : Prop where
  /-- The ring holds what it did not deliver. -/
  ring : LogRing.Inv n (w.console.cores i).ring l
  /-- It accepted what is due. -/
  accepted : (w.console.cores i).ring.accepted = (w.books i).messages
  /-- The output device got what it delivered. -/
  delivered : (w.console.cores i).ring.delivered = linesOf i w.console.output
  /-- The standard output holds what waits. -/
  pending : Holds (w.console.cores i).cio (w.books i).pending
  /-- Messages fit the reader's buffer. -/
  short : ∀ m ∈ (w.books i).messages, m.val.length < appLogBufMax
  /-- A ring that is not set up is empty. -/
  idle : (w.console.cores i).ring.log.areaIsValid = false → l = []

section Segments

variable {l s : List U8} {c : U8} {m : Message}

/-- Segments of closed bytes, from the first one on. -/
theorem closed_induction {P : List U8 → Prop} (hnil : P [])
    (hnext : ∀ xs c ys, (∀ x ∈ xs, isTerminator x = false) → isTerminator c = true → Closed ys →
      P ys → P (xs ++ c :: ys)) (h : Closed l) : P l := by
  induction hk : l.length using Nat.strongRecOn generalizing l with
  | _ k ih =>
    by_cases hl : l = []
    · rw [hl]
      exact hnil
    · obtain ⟨c,ys,hc,hsplit,hys⟩ := h.split hl
      have hlen := congrArg List.length hsplit
      rw [List.length_append,List.length_cons] at hlen
      rw [hsplit]
      exact hnext _ c ys (nextSegment_plain l) hc hys (ih ys.length (by omega) hys rfl)

theorem segments_terminated (m : Message) : segments m.val = segments (m.val ++ [0#8]) := by
  have happend := Closed.segments_append (l := []) (Or.inl rfl) m.val
  rw [List.nil_append,segments_nil,List.nil_append] at happend
  exact happend.symm

theorem closed_terminated (m : Message) : Closed (m.val ++ [0#8]) := Or.inr ⟨m.val,rfl⟩

/-- A segment is shorter than the bytes it is in. -/
theorem length_lt_of_mem_segments (h : Closed l) : ∀ s ∈ segments l, s.length < l.length := by
  refine closed_induction (P := fun l => ∀ s ∈ segments l, s.length < l.length) ?_ ?_ h
  · intro s hs
    cases hs
  · intro xs c ys hxs hc _ ih s hs
    rw [segments_next hc hxs] at hs
    rw [List.length_append,List.length_cons]
    rcases List.mem_append.mp hs with hs | hs
    · split at hs
      · cases hs
      · rw [List.mem_singleton.mp hs]
        omega
    · have hlt := ih s hs
      omega

/-- A character that ends no segment is in one. -/
theorem segments_ne_nil (h : Closed l) (hc : isTerminator c = false) :
    c ∈ l → segments l ≠ [] := by
  refine closed_induction (P := fun l => c ∈ l → segments l ≠ [])
    (fun hmem => absurd hmem List.not_mem_nil) ?_ h
  intro xs d ys hxs hd _ ih hmem
  rw [segments_next hd hxs]
  by_cases hempty : xs = []
  · subst hempty
    rcases List.mem_cons.mp hmem with rfl | hmem
    · rw [hd] at hc
      contradiction
    · rw [if_pos rfl]
      exact ih hmem
  · rw [if_neg hempty]
    exact List.cons_ne_nil _ _

/-- What is printed has a line. -/
theorem segments_appLogPrintf_ne_nil (curTime : BitVec 64) (text : Message) :
    segments (appLogPrintf curTime text).val ≠ [] := by
  rw [segments_terminated]
  refine segments_ne_nil (c := 46#8) (closed_terminated _) (by decide) ?_
  unfold appLogPrintf stamp
  simp

end Segments

section Rings

variable {n} {r : LogRing.State} {l : List U8} {m : Message}

theorem areaIsValid_putString (r : LogMem) (m : Message) :
    (putString n r m).log.areaIsValid = r.areaIsValid := by
  unfold putString
  split
  · rfl
  · split
    · rfl
    · split <;> rfl

/-- A message that leaves a byte free is accepted. -/
theorem put_accepted (h : LogRing.Inv n r l) (hvalid : r.log.areaIsValid = true)
    (hm : m.val ≠ []) (hroom : l.length + m.val.length + 1 < n) :
    LogRing.Inv n (LogRing.step n r (.put m)) (l ++ (m.val ++ [0#8])) ∧
      (LogRing.step n r (.put m)).accepted = r.accepted ++ [m] ∧
      (LogRing.step n r (.put m)).delivered = r.delivered ∧
      (LogRing.step n r (.put m)).log.areaIsValid = r.log.areaIsValid := by
  rcases putString_cases h.ring m with ⟨-,hrefused⟩ | ⟨-,-,-,happ⟩
  · have hlarge := hrefused hvalid hm
    omega
  · have hring := happ.represents h.ring (by rw [length_put]; exact hroom)
    have haccepted : (LogRing.step n r (.put m)).accepted = r.accepted ++ [m] :=
      if_pos happ.status
    refine ⟨⟨hring,Or.inr ⟨l ++ m.val,(List.append_assoc ..).symm⟩,?_⟩,haccepted,rfl,
      areaIsValid_putString ..⟩
    rw [haccepted,h.closed.segments_append,← List.append_assoc,List.flatMap_append,
      List.flatMap_singleton,← h.account]
    rfl

/-- Without a free byte the ring is as before, or looks empty. -/
theorem put_without_room (h : LogRing.Inv n r l)
    (hroom : ¬ (r.log.areaIsValid = true ∧ l.length + m.val.length + 1 < n)) :
    stored n (LogRing.step n r (.put m)).log = l ∨
      stored n (LogRing.step n r (.put m)).log = [] := by
  rcases putString_cases h.ring m with ⟨hput,-⟩ | ⟨hvalid,-,hfit,happ⟩
  · refine Or.inl ?_
    unfold LogRing.step
    simp only [hput]
    exact h.ring.stored_eq
  · refine Or.inr (happ.stored_eq_nil h.ring ?_)
    have hfull : ¬ l.length + m.val.length + 1 < n := fun hlt => hroom ⟨hvalid,hlt⟩
    rw [length_put]
    omega

/-- What a read leaves. -/
def rest (l : List U8) : List U8 := l.drop ((nextSegment l).length + 1)

/-- A read whose buffer has room leaves what is behind the next segment. -/
theorem get_rest {bufSize : ℕ} (h : LogRing.Inv n r l)
    (hshort : (nextSegment l).length < bufSize) :
    LogRing.Inv n (LogRing.step n r (.get bufSize)) (rest l) ∧
      (getString n r.log bufSize).numBytes = l.length ∧
      (LogRing.step n r (.get bufSize)).log.areaIsValid = r.log.areaIsValid := by
  have hregular : Regular n r (.get bufSize) := by
    unfold Regular
    rw [h.ring.stored_eq]
    exact hshort
  obtain ⟨l',hinv⟩ := h.step hregular
  have hrest : Represents n (getString n r.log bufSize).log (rest l) := by
    by_cases hl : l = []
    · subst hl
      unfold getString
      rw [h.ring.numBytes_eq]
      exact h.ring
    · obtain ⟨c,ys,-,hsplit,-,hring⟩ := getString_split h.ring h.closed hl hshort
      have hdrop := congrArg (List.drop (nextSegment l).length) hsplit
      rw [List.drop_left] at hdrop
      have hys : rest l = ys := by
        unfold rest
        rw [← List.drop_drop,hdrop]
        rfl
      rw [hys]
      exact hring
  have hl' : l' = rest l := hinv.ring.stored_eq.symm.trans hrest.stored_eq
  rw [hl'] at hinv
  refine ⟨hinv,?_,?_⟩
  · rw [← h.ring.numBytes_eq]
    unfold getString
    split <;> rfl
  · show (getString n r.log bufSize).log.areaIsValid = _
    unfold getString
    split <;> rfl

end Rings

section System

variable {n} {vsnprintf} {w w' : World cpus} {i j : Fin cpus} {l : List U8} {m : Message}
  {core : Core} {b : Books} {curTime : BitVec 64} {e : CoreCall}

theorem linesOf_concat (output : List (Fin cpus × List U8)) (str : List U8) :
    linesOf i (output ++ [(j,str)]) = linesOf i output ++ if j = i then [str] else [] := by
  unfold linesOf
  rw [List.filterMap_append]
  congr 1
  by_cases hj : j = i <;> simp [hj]

/-- A core is as before when its state, its books and its lines are. -/
theorem CoreInv.congr (h : CoreInv n w i l)
    (hcore : w'.console.cores i = w.console.cores i) (hbooks : w'.books i = w.books i)
    (hlines : linesOf i w'.console.output = linesOf i w.console.output) : CoreInv n w' i l := by
  constructor
  · rw [hcore]
    exact h.ring
  · rw [hcore,hbooks]
    exact h.accepted
  · rw [hcore,hlines]
    exact h.delivered
  · rw [hcore,hbooks]
    exact h.pending
  · rw [hbooks]
    exact h.short
  · rw [hcore]
    exact h.idle

theorem CoreInv.account (h : CoreInv n w i l) :
    linesOf i w.console.output ++ segments l = linesDue (w.books i) := by
  unfold linesDue
  rw [← h.accepted,← h.delivered]
  exact h.ring.account

theorem due_eq (h : due vsnprintf b curTime e = some m) :
    ∃ text, m = appLogPrintf curTime text := by
  cases e with
  | cio e =>
    obtain ⟨text,-,hm⟩ := Option.map_eq_some_iff.mp h
    exact ⟨_,hm.symm⟩
  | print text => exact ⟨text,(Option.some.inj h).symm⟩

/-- A call prints the message that is due, if there is one. -/
theorem coreStep_cases (n : ℕ) (vsnprintf : Message → Message) (curTime : BitVec 64)
    (e : CoreCall) (hp : Holds core.cio b.pending) :
    Holds (coreStep n vsnprintf core curTime e).cio (note vsnprintf b curTime e).pending ∧
      ((due vsnprintf b curTime e = none ∧
          (coreStep n vsnprintf core curTime e).ring = core.ring) ∨
        ∃ m, due vsnprintf b curTime e = some m ∧
          (coreStep n vsnprintf core curTime e).ring = LogRing.step n core.ring (.put m)) := by
  cases e with
  | cio e =>
    obtain ⟨hholds,hprint⟩ := hp.call e
    unfold coreStep coreText due note
    dsimp only
    rw [hprint]
    cases hcollect : (collect b.pending e).1 with
    | none => exact ⟨hholds,Or.inl ⟨rfl,rfl⟩⟩
    | some text => exact ⟨hholds,Or.inr ⟨_,rfl,rfl⟩⟩
  | print text => exact ⟨hp,Or.inr ⟨_,rfl,rfl⟩⟩

/-- A call with room keeps what the system keeps of its core. -/
theorem CoreInv.call (h : CoreInv n w i l)
    (hroom : HasRoom n vsnprintf w (.core i curTime e)) :
    ∃ l', CoreInv n (step n vsnprintf w (.core i curTime e)) i l' := by
  have hcore : (step n vsnprintf w (.core i curTime e)).console.cores i =
      coreStep n vsnprintf (w.console.cores i) curTime e := update_self ..
  have hbooks : (step n vsnprintf w (.core i curTime e)).books i =
      note vsnprintf (w.books i) curTime e := update_self ..
  obtain ⟨hpending,hnone | ⟨m,hdue,hring⟩⟩ :=
    coreStep_cases n vsnprintf curTime e h.pending
  · obtain ⟨hdue,hring⟩ := hnone
    have hmessages : (note vsnprintf (w.books i) curTime e).messages =
        (w.books i).messages := by
      unfold note
      rw [hdue]
      exact List.append_nil _
    refine ⟨l,?_,?_,?_,?_,?_,?_⟩
    · rw [hcore,hring]
      exact h.ring
    · rw [hcore,hbooks,hring,hmessages]
      exact h.accepted
    · rw [hcore,hring]
      exact h.delivered
    · rw [hcore,hbooks]
      exact hpending
    · rw [hbooks,hmessages]
      exact h.short
    · rw [hcore,hring]
      exact h.idle
  · have hmessages : (note vsnprintf (w.books i) curTime e).messages =
        (w.books i).messages ++ [m] := by
      unfold note
      rw [hdue]
      rfl
    obtain ⟨text,rfl⟩ := due_eq hdue
    have hne : (appLogPrintf curTime text).val ≠ [] := fun hnil =>
      segments_appLogPrintf_ne_nil curTime text (by rw [hnil]; rfl)
    obtain ⟨hvalid,hfree⟩ := hroom _ hdue
    rw [h.ring.ring.stored_eq] at hfree
    obtain ⟨hinv,haccepted,hdelivered,hset⟩ := put_accepted h.ring hvalid hne hfree
    refine ⟨l ++ ((appLogPrintf curTime text).val ++ [0#8]),?_,?_,?_,?_,?_,?_⟩
    · rw [hcore,hring]
      exact hinv
    · rw [hcore,hbooks,hring,hmessages,haccepted,h.accepted]
    · rw [hcore,hring,hdelivered]
      exact h.delivered
    · rw [hcore,hbooks]
      exact hpending
    · rw [hbooks,hmessages]
      intro x hx
      rcases List.mem_append.mp hx with hx | hx
      · exact h.short x hx
      · rw [List.mem_singleton.mp hx]
        exact length_appLogPrintf ..
    · rw [hcore,hring,hset,hvalid]
      intro hidle
      contradiction

/-- A call without room loses a line. -/
theorem CoreInv.call_without_room (h : CoreInv n w i l)
    (hroom : ¬ HasRoom n vsnprintf w (.core i curTime e)) :
    ¬ Complete n (step n vsnprintf w (.core i curTime e)) := by
  intro hcomplete
  have hafter := congrArg List.length (hcomplete i)
  have hbefore := congrArg List.length h.account
  have hcore : (step n vsnprintf w (.core i curTime e)).console.cores i =
      coreStep n vsnprintf (w.console.cores i) curTime e := update_self ..
  have hbooks : (step n vsnprintf w (.core i curTime e)).books i =
      note vsnprintf (w.books i) curTime e := update_self ..
  unfold HasRoom at hroom
  push Not at hroom
  obtain ⟨m,hdue,hfull⟩ := hroom
  obtain ⟨-,⟨hnone,-⟩ | ⟨m',hdue',hring⟩⟩ :=
    coreStep_cases n vsnprintf curTime e h.pending
  · rw [hnone] at hdue
    contradiction
  obtain rfl : m' = m := Option.some.inj (hdue'.symm.trans hdue)
  obtain ⟨text,hm⟩ := due_eq hdue
  have hline : 0 < (segments m'.val).length := by
    rw [hm]
    exact List.length_pos_of_ne_nil (segments_appLogPrintf_ne_nil curTime text)
  have hdueLines : linesDue (note vsnprintf (w.books i) curTime e) =
      linesDue (w.books i) ++ segments m'.val := by
    unfold linesDue note
    rw [hdue]
    simp
  have hstored : (segments (stored n
      (coreStep n vsnprintf (w.console.cores i) curTime e).ring.log)).length ≤
        (segments l).length := by
    rw [hring]
    rw [h.ring.ring.stored_eq] at hfull
    rcases put_without_room h.ring (m := m') (fun hok => by
      have hlarge := hfull hok.1
      omega) with hl | hl
    · rw [hl]
    · rw [hl,segments_nil]
      exact Nat.zero_le _
  have houtput : (step n vsnprintf w (.core i curTime e)).console.output =
    w.console.output := rfl
  rw [hcore,hbooks,houtput,hdueLines,List.length_append,List.length_append] at hafter
  rw [List.length_append] at hbefore
  omega

/-- The next segment fits the reader's buffer. -/
theorem CoreInv.segment_short (h : CoreInv n w i l) : (nextSegment l).length < appLogBufMax := by
  by_cases hempty : nextSegment l = []
  · rw [hempty]
    exact Nat.zero_lt_succ _
  have hl : l ≠ [] := fun hnil => hempty (by rw [hnil]; rfl)
  obtain ⟨c,ys,hc,hsplit,-⟩ := h.ring.closed.split hl
  have hmem : nextSegment l ∈ segments l := by
    have hnext : segments (nextSegment l ++ c :: ys) = _ :=
      segments_next hc (nextSegment_plain l)
    rw [← hsplit,if_neg hempty] at hnext
    rw [hnext]
    exact List.mem_append_left _ (List.mem_singleton.mpr rfl)
  have hdue : nextSegment l ∈ linesDue (w.books i) := by
    rw [← h.account]
    exact List.mem_append_right _ hmem
  obtain ⟨m,hm,hseg⟩ := List.mem_flatMap.mp hdue
  rw [segments_terminated] at hseg
  have hlt := length_lt_of_mem_segments (closed_terminated m) _ hseg
  rw [List.length_append,List.length_singleton] at hlt
  have hshort := h.short m hm
  omega

end System

section Reader

variable {n} {w w' : World cpus} {i j : Fin cpus} {l : List U8}

/-- A round of the reader at a ring that is set up takes its next segment,
and goes on when there was none. -/
theorem CoreInv.get (h : CoreInv n w i l) (hcpu : w.console.cpuId = i.val)
    (hvalid : (w.console.cores i).ring.log.areaIsValid = true) :
    CoreInv n (step n vsnprintf w .read) i (rest l) ∧
      (step n vsnprintf w .read).console.cpuId = if l = [] then i.val + 1 else i.val := by
  have hi : (⟨w.console.cpuId,hcpu ▸ i.isLt⟩ : Fin cpus) = i := Fin.ext hcpu
  have hround : readRound n w.console =
      { cores := update w.console.cores i
          ⟨(w.console.cores i).cio,
            LogRing.step n (w.console.cores i).ring (.get appLogBufMax)⟩
        cpuId := if (getString n (w.console.cores i).ring.log appLogBufMax).numBytes = 0 then
          i.val + 1 else i.val
        output := if (getString n (w.console.cores i).ring.log appLogBufMax).str = [] then
          w.console.output else w.console.output ++
            [(i,(getString n (w.console.cores i).ring.log appLogBufMax).str)] } := by
    unfold readRound
    rw [dif_pos (hcpu ▸ i.isLt)]
    dsimp only
    rw [hi,if_pos hvalid,hcpu]
  obtain ⟨hinv,hbytes,hset⟩ := get_rest h.ring h.segment_short
  constructor
  · have hcore : (step n vsnprintf w .read).console.cores i =
        ⟨(w.console.cores i).cio,
          LogRing.step n (w.console.cores i).ring (.get appLogBufMax)⟩ := by
      show (readRound n w.console).cores i = _
      rw [hround]
      exact update_self ..
    constructor
    · rw [hcore]
      exact hinv
    · rw [hcore]
      exact h.accepted
    · rw [hcore]
      show (if (getString n (w.console.cores i).ring.log appLogBufMax).str = [] then
        (w.console.cores i).ring.delivered else (w.console.cores i).ring.delivered ++
          [(getString n (w.console.cores i).ring.log appLogBufMax).str]) =
        linesOf i (readRound n w.console).output
      rw [hround]
      dsimp only
      split
      · exact h.delivered
      · rw [linesOf_concat,if_pos rfl,h.delivered]
    · rw [hcore]
      exact h.pending
    · exact h.short
    · rw [hcore]
      intro hidle
      rw [hset,hvalid] at hidle
      contradiction
  · show (readRound n w.console).cpuId = _
    rw [hround]
    dsimp only
    rw [hbytes]
    simp only [List.length_eq_zero_iff]

/-- The rings hold the listed bytes. -/
def Holding (n : ℕ) (w : World cpus) (ls : Fin cpus → List U8) : Prop :=
  ∀ i, CoreInv n w i (ls i)

/-- A round of the reader takes the next segment of its ring, or goes on to
the next core when the ring is empty. -/
theorem Holding.read {ls : Fin cpus → List U8} (h : Holding n w ls)
    (hcpu : w.console.cpuId = i.val) :
    Holding n (step n vsnprintf w .read) (update ls i (rest (ls i))) ∧
      (step n vsnprintf w .read).console.cpuId = if ls i = [] then i.val + 1 else i.val := by
  have hi : (⟨w.console.cpuId,hcpu ▸ i.isLt⟩ : Fin cpus) = i := Fin.ext hcpu
  by_cases hvalid : (w.console.cores i).ring.log.areaIsValid = true
  · obtain ⟨hget,hnext⟩ := (h i).get vsnprintf hcpu hvalid
    refine ⟨fun j => ?_,hnext⟩
    by_cases hj : j = i
    · subst hj
      rw [update_self]
      exact hget
    · rw [update_of_ne hj]
      refine (h j).congr ?_ rfl ?_
      · show (readRound n w.console).cores j = _
        unfold readRound
        rw [dif_pos (hcpu ▸ i.isLt)]
        dsimp only
        rw [hi,if_pos hvalid]
        exact update_of_ne hj ..
      · show linesOf j (readRound n w.console).output = _
        unfold readRound
        rw [dif_pos (hcpu ▸ i.isLt)]
        dsimp only
        rw [hi,if_pos hvalid]
        dsimp only
        split
        · rfl
        · rw [linesOf_concat,if_neg (Ne.symm hj),List.append_nil]
  · have hempty : ls i = [] := (h i).idle (by simpa using hvalid)
    have hround : readRound n w.console = { w.console with cpuId := i.val + 1 } := by
      unfold readRound
      rw [dif_pos (hcpu ▸ i.isLt)]
      dsimp only
      rw [hi,if_neg hvalid,hcpu]
    have hsame : update ls i (rest (ls i)) = ls := by
      rw [hempty]
      exact (congrArg (update ls i) hempty.symm).trans (update_eq_self i ls)
    rw [hsame,if_pos hempty]
    refine ⟨fun j => (h j).congr ?_ rfl ?_,congrArg Console.cpuId hround⟩
    · exact congrFun (congrArg Console.cores hround) j
    · show linesOf j (readRound n w.console).output = _
      rw [hround]

/-- Behind the last core the reader begins anew. -/
theorem Holding.wrap {ls : Fin cpus → List U8} (h : Holding n w ls)
    (hcpu : w.console.cpuId = cpus) :
    Holding n (step n vsnprintf w .read) ls ∧
      (step n vsnprintf w .read).console.cpuId = 0 := by
  have hround : readRound n w.console = { w.console with cpuId := 0 } := by
    unfold readRound
    rw [dif_neg (by omega)]
  refine ⟨fun j => (h j).congr ?_ rfl ?_,congrArg Console.cpuId hround⟩
  · exact congrFun (congrArg Console.cores hround) j
  · show linesOf j (readRound n w.console).output = _
    rw [hround]

/-- Reads in a row. -/
def reads (n : ℕ) (k : ℕ) (w : World cpus) : World cpus :=
  run (step n vsnprintf) w (List.replicate k .read)

theorem reads_add (k m : ℕ) :
    reads vsnprintf n (k + m) w = reads vsnprintf n m (reads vsnprintf n k w) := by
  unfold reads
  rw [List.replicate_add,run_append]

theorem books_reads (k : ℕ) : (reads vsnprintf n k w).books = w.books := by
  induction k generalizing w with
  | zero => rfl
  | succ k ih => exact ih (w := step n vsnprintf w .read)

/-- Reads in a row empty the ring of the core the reader is at. -/
theorem Holding.drain_core {ls : Fin cpus → List U8} (h : Holding n w ls)
    (hcpu : w.console.cpuId = i.val) :
    ∃ k, Holding n (reads vsnprintf n k w) (update ls i []) ∧
      (reads vsnprintf n k w).console.cpuId = i.val + 1 := by
  induction hk : (ls i).length using Nat.strongRecOn generalizing w ls with
  | _ k ih =>
    obtain ⟨hread,hnext⟩ := h.read vsnprintf hcpu
    by_cases hempty : ls i = []
    · rw [hempty] at hread
      rw [if_pos hempty] at hnext
      exact ⟨1,hread,hnext⟩
    · rw [if_neg hempty] at hnext
      have hpos := List.length_pos_of_ne_nil hempty
      have hshorter : (update ls i (rest (ls i)) i).length < k := by
        rw [update_self]
        unfold rest
        rw [List.length_drop]
        omega
      obtain ⟨m,hdrained,hlast⟩ := ih _ hshorter hread hnext rfl
      rw [update_idem] at hdrained
      refine ⟨1 + m,?_,?_⟩
      · rw [reads_add]
        exact hdrained
      · rw [reads_add]
        exact hlast

/-- Reads up to the last core leave no ring behind that is not empty. -/
theorem Holding.drain_from {ls : Fin cpus → List U8} (d : ℕ) (h : Holding n w ls)
    (hcpu : w.console.cpuId + d = cpus) :
    ∃ k ls', Holding n (reads vsnprintf n k w) ls' ∧
      (reads vsnprintf n k w).console.cpuId = cpus ∧
      ∀ i : Fin cpus, w.console.cpuId ≤ i.val ∨ ls i = [] → ls' i = [] := by
  induction d generalizing w ls with
  | zero =>
    refine ⟨0,ls,h,hcpu,fun i hi => hi.resolve_left ?_⟩
    have hlt := i.isLt
    omega
  | succ d ih =>
    obtain ⟨i,hi⟩ : ∃ i : Fin cpus, w.console.cpuId = i.val :=
      ⟨⟨w.console.cpuId,by omega⟩,rfl⟩
    obtain ⟨k,hcore,hnext⟩ := h.drain_core vsnprintf hi
    obtain ⟨m,ls',hrest,hlast,hempty⟩ := ih hcore (by omega)
    refine ⟨k + m,ls',?_,?_,fun j hj => hempty j ?_⟩
    · rw [reads_add]
      exact hrest
    · rw [reads_add]
      exact hlast
    · by_cases hji : j = i
      · subst hji
        exact Or.inr (update_self ..)
      · have hne : j.val ≠ i.val := fun heq => hji (Fin.ext heq)
        rw [update_of_ne hji]
        rcases hj with hj | hj
        · exact Or.inl (by omega)
        · exact Or.inr hj

/-- Reads in a row empty all rings. -/
theorem Holding.drain {ls : Fin cpus → List U8} (h : Holding n w ls)
    (hcpu : w.console.cpuId ≤ cpus) :
    ∃ k, Holding n (reads vsnprintf n k w) fun _ => [] := by
  obtain ⟨k,ls₁,hend,hlast,-⟩ :=
    h.drain_from vsnprintf (cpus - w.console.cpuId) (by omega)
  obtain ⟨hwrap,hzero⟩ := hend.wrap vsnprintf hlast
  obtain ⟨m,ls₂,hall,-,hempty⟩ :=
    hwrap.drain_from vsnprintf cpus (by omega)
  refine ⟨k + (1 + m),fun i => ?_⟩
  rw [reads_add,reads_add,← hempty i (Or.inl (by rw [hzero]; exact Nat.zero_le _))]
  exact hall i

/-- The rings hold what they did not deliver, and the reader is at a core or
behind the last one. -/
def ConsoleInv (n : ℕ) (w : World cpus) : Prop :=
  (∃ ls, Holding n w ls) ∧ w.console.cpuId ≤ cpus

theorem ConsoleInv.complete (h : ConsoleInv n w) : Complete n w := by
  obtain ⟨⟨ls,hls⟩,-⟩ := h
  intro i
  rw [(hls i).ring.ring.stored_eq]
  exact (hls i).account

variable {vsnprintf} in
theorem ConsoleInv.step {e : Event cpus} (h : ConsoleInv n w) (hroom : HasRoom n vsnprintf w e) :
    ConsoleInv n (step n vsnprintf w e) := by
  obtain ⟨⟨ls,hls⟩,hcpu⟩ := h
  cases e with
  | core i curTime e =>
    obtain ⟨l',hi⟩ := (hls i).call hroom
    refine ⟨⟨update ls i l',fun j => ?_⟩,hcpu⟩
    by_cases hj : j = i
    · subst hj
      rw [update_self]
      exact hi
    · rw [update_of_ne hj]
      exact (hls j).congr (update_of_ne hj ..) (update_of_ne hj ..) rfl
  | read =>
    rcases Nat.lt_or_ge w.console.cpuId cpus with hlt | hge
    · obtain ⟨hread,hnext⟩ := hls.read (i := ⟨w.console.cpuId,hlt⟩) vsnprintf rfl
      refine ⟨⟨_,hread⟩,?_⟩
      rw [hnext]
      dsimp only
      split <;> omega
    · obtain ⟨hwrap,hzero⟩ := hls.wrap vsnprintf (by omega)
      refine ⟨⟨ls,hwrap⟩,?_⟩
      rw [hzero]
      exact Nat.zero_le _

theorem consoleInv_startUp (place : Fin cpus → Fin n) (valid : Fin cpus → Bool)
    (mem : Fin cpus → ℕ → U8) : ConsoleInv n (startUp n place valid mem) := by
  refine ⟨⟨fun _ => [],fun i => ?_⟩,Nat.zero_le _⟩
  exact ⟨inv_start (place i) (valid i) (mem i),rfl,rfl,CioLines.holds_start (mem i),
    fun m hm => absurd hm List.not_mem_nil,fun _ => rfl⟩

end Reader

/-- An empty ring that is larger than the print buffer has room. -/
theorem hasRoom_of_empty {w : World cpus} {i : Fin cpus} (curTime : BitVec 64) (e : CoreCall)
    (hvalid : (w.console.cores i).ring.log.areaIsValid = true)
    (hempty : stored n (w.console.cores i).ring.log = []) (hn : appLogBufMax < n) :
    HasRoom n vsnprintf w (.core i curTime e) := by
  intro m hm
  obtain ⟨text,rfl⟩ := due_eq hm
  have hlen := length_appLogPrintf curTime text
  refine ⟨hvalid,?_⟩
  rw [hempty,List.length_nil]
  omega

/-- In every run, whatever the cores print and however their calls mix with
the reader's rounds, every line is given to the output device or waits in
its ring, once and in order for its core, in every state, exactly when every
ring is set up and has room for what is printed into it. -/
theorem console_complete_iff (place : Fin cpus → Fin n) (valid : Fin cpus → Bool)
    (mem : Fin cpus → ℕ → U8) (events : List (Event cpus)) :
    Along (step n vsnprintf) (Complete n) (startUp n place valid mem) events ↔
      Guarded (step n vsnprintf) (HasRoom n vsnprintf) (startUp n place valid mem) events := by
  refine along_iff_guarded (I := ConsoleInv n) (fun _ h => h.complete) (fun _ _ h hG => h.step hG)
    ?_ (consoleInv_startUp place valid mem)
  intro w e h
  refine ⟨fun hcomplete => ?_,fun hroom => (h.step hroom).complete⟩
  cases e with
  | core i curTime e =>
    by_contra hroom
    obtain ⟨⟨ls,hls⟩,-⟩ := h
    exact (hls i).call_without_room hroom hcomplete
  | read => exact trivial

/-- After every run with room, the reader's rounds alone bring every line
that was printed to the output device. -/
theorem console_delivers (place : Fin cpus → Fin n) (valid : Fin cpus → Bool)
    (mem : Fin cpus → ℕ → U8) (events : List (Event cpus))
    (hroom : Guarded (step n vsnprintf) (HasRoom n vsnprintf) (startUp n place valid mem) events) :
    ∃ k, ∀ i,
      linesOf i (reads vsnprintf n k
        (run (step n vsnprintf) (startUp n place valid mem) events)).console.output =
      linesDue ((run (step n vsnprintf) (startUp n place valid mem) events).books i) := by
  have hrun : ConsoleInv n (run (step n vsnprintf) (startUp n place valid mem) events) :=
    along_final (along_of_guarded (fun _ _ h hG => h.step hG)
      (consoleInv_startUp place valid mem) hroom)
  obtain ⟨⟨ls,hls⟩,hcpu⟩ := hrun
  obtain ⟨k,hempty⟩ := hls.drain vsnprintf hcpu
  refine ⟨k,fun i => ?_⟩
  have haccount := (hempty i).account
  rw [segments_nil,List.append_nil,books_reads] at haccount
  exact haccount

theorem fourKilobytes_pos : 0 < 4096 := by omega

/-- Two cores with empty rings of four kilobytes. -/
def twoCores : World 2 :=
  startUp 4096 (fun _ => ⟨0,fourKilobytes_pos⟩) (fun _ => true) fun _ _ => 0#8

/-- The second one. -/
def secondCore : Fin 2 := ⟨1,Nat.one_lt_two⟩

/-- A text of two characters. -/
def okText : Message := ⟨[79#8,75#8],by decide⟩

/-- One core prints a text, the other one ends a line. -/
def twoLines : List (Event 2) :=
  [.core ⟨0,Nat.two_pos⟩ 0#64 (.print okText),
    .core secondCore 7#64 (.cio (.char CioLines.newline))]

theorem stored_twoCores (i : Fin 2) : stored 4096 (twoCores.console.cores i).ring.log = [] :=
  (inv_start _ _ _).ring.stored_eq

theorem console_delivers_two_lines :
    ∃ k, ∀ i, linesOf i (reads id 4096 k (run (step 4096 id) twoCores twoLines)).console.output =
      linesDue ((run (step 4096 id) twoCores twoLines).books i) := by
  have hn : appLogBufMax < 4096 := by
    unfold appLogBufMax
    omega
  exact console_delivers 4096 id _ _ _ twoLines
    ⟨hasRoom_of_empty 4096 id 0#64 _ rfl (stored_twoCores _) hn,
      hasRoom_of_empty 4096 id 7#64 _ rfl (stored_twoCores secondCore) hn,trivial⟩

end EthernetFirmware.ConsoleOutput
