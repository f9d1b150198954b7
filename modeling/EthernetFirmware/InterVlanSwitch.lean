import Mathlib.Data.List.Basic
import EthernetFirmware.RemoteConfig

/-!
# Software switch between VLANs

The packet task takes the received packets from the driver, rewrites their
addresses and their VLAN, and queues them for transmission. The VLAN edit is
a library call that may fail for a frame. The inner loop fetches the next
packet where an edit succeeded, and only there; the loop is modelled with an
explicit bound on its rounds.
-/

namespace EthernetFirmware.InterVlanSwitch

open RemoteConfig

/-- Ethernet frame with a VLAN header. -/
structure EthVlanFrame where
  /-- Destination address. -/
  dstMac : MacAddr
  /-- Source address. -/
  srcMac : MacAddr
  /-- Tag protocol identifier. -/
  tpid : U16
  /-- Tag control information. -/
  tci : U16
  /-- Type of the payload. -/
  etherType : U16
  /-- Octets behind the header. -/
  payload : List U8
  deriving DecidableEq

/-- `APP_INTERVLAN_EGRESS_VLANID`. -/
def egressVlanId : U16 := 200

/-- Addresses the task writes, and the frame library. -/
structure Env where
  /-- `testDstMacAddr`. -/
  testDstMacAddr : MacAddr
  /-- Address of the host port. -/
  hostMacAddr : MacAddr
  /-- `EthFrame_changeVlanId`: the frame afterwards and a status. -/
  changeVlanId : EthVlanFrame → U16 → EthVlanFrame × Status
  /-- `EthFrame_decrementTTL`. -/
  decrementTTL : EthVlanFrame → EthVlanFrame

/-- A packet: its buffer and the frame in it. -/
structure Pkt where
  /-- Buffer. -/
  buf : ℕ
  /-- Content. -/
  frame : EthVlanFrame
  deriving DecidableEq

/-- Queues of one iteration. -/
structure Queues where
  /-- Received packets still to be handled. -/
  rxReadyQ : List Pkt
  /-- Packets to transmit. -/
  txSubmitQ : List Pkt
  /-- Buffers to hand back for reception. -/
  rxFreeQ : List Pkt
  /-- Packet in hand. -/
  pktInfo : Option Pkt
  deriving DecidableEq

/-- Frame with the addresses written. -/
def setAddresses (env : Env) (f : EthVlanFrame) : EthVlanFrame :=
  { f with dstMac := env.testDstMacAddr, srcMac := env.hostMacAddr }

/-- Outcome of the VLAN edit of a packet. -/
def editVlan (env : Env) (pkt : Pkt) : EthVlanFrame × Status :=
  env.changeVlanId (setAddresses env pkt.frame) egressVlanId

/-- The VLAN edit of a packet succeeds. -/
def editOk (env : Env) (pkt : Pkt) : Bool := (editVlan env pkt).2 == sok

/-- Packet as it is queued for transmission. -/
def edited (env : Env) (pkt : Pkt) : Pkt := ⟨pkt.buf,env.decrementTTL (editVlan env pkt).1⟩

/-- The next received packet is taken in hand. -/
def deqRx (q : Queues) : Queues :=
  match q.rxReadyQ with
  | [] => { q with pktInfo := none }
  | pkt :: rest => { q with rxReadyQ := rest, pktInfo := some pkt }

/-- One round of the inner loop. -/
def pktRound (env : Env) (q : Queues) (pkt : Pkt) : Queues :=
  if editOk env pkt then deqRx { q with txSubmitQ := q.txSubmitQ ++ [edited env pkt] }
  -- The packet stays in hand, with what the library left of its frame.
  else { q with pktInfo := some ⟨pkt.buf,(editVlan env pkt).1⟩ }

/-- The inner loop of `CpswApp_pktRxTx`, for so many rounds at most. -/
def pktLoop (env : Env) : ℕ → Queues → Option Queues
  | 0, q => if q.pktInfo.isNone then some q else none
  | rounds + 1, q =>
    match q.pktInfo with
    | none => some q
    | some pkt => pktLoop env rounds (pktRound env q pkt)

/-- State between two iterations. -/
structure SwitchTask where
  /-- Received packets left over. -/
  rxReadyQ : List Pkt
  /-- Packets received. -/
  numPkts : ℕ
  /-- Packets submitted for transmission. -/
  submitted : List Pkt
  /-- Packets handed back for reception. -/
  returned : List Pkt

/-- One iteration: the assertion, `CpswApp_receivePkts`, the inner loop and
the submission. The driver's answer is the packets it had, or a failure. -/
def iteration (env : Env) (rounds : ℕ) (s : SwitchTask) (received : Option (List Pkt)) :
    Option SwitchTask :=
  if s.rxReadyQ.isEmpty then
    match received with
    | none | some [] => some s
    | some pkts =>
      (pktLoop env rounds (deqRx ⟨pkts,[],[],none⟩)).map fun q =>
        { rxReadyQ := q.rxReadyQ
          numPkts := s.numPkts + pkts.length
          submitted := s.submitted ++ q.txSubmitQ
          returned := s.returned ++ q.rxFreeQ }
  else none

/-- `CpswApp_pktRxTx` for the listed answers of the driver. -/
def pktRxTx (env : Env) (rounds : ℕ) : SwitchTask → List (Option (List Pkt)) → Option SwitchTask
  | s, [] => some s
  | s, r :: rs => (iteration env rounds s r).bind fun s => pktRxTx env rounds s rs

/-- The task as it starts. -/
def start : SwitchTask := ⟨[],0,[],[]⟩

/-- Packets received, in arrival order. -/
def arrived (rs : List (Option (List Pkt))) : List Pkt := rs.flatMap fun r => r.getD []

/-- The task gets through the listed receptions and has consumed every
packet: nothing waits, each packet whose edit succeeded was submitted once
and in order, and each other one was handed back. -/
def Consumed (env : Env) (s : SwitchTask) (rs : List (Option (List Pkt))) : Prop :=
  ∃ rounds s', pktRxTx env rounds s rs = some s' ∧ s'.rxReadyQ = [] ∧
    s'.submitted = s.submitted ++ ((arrived rs).filter (editOk env)).map (edited env) ∧
    s'.returned.map Pkt.buf =
      s.returned.map Pkt.buf ++ ((arrived rs).filter fun pkt => !editOk env pkt).map Pkt.buf

section Loop

variable {env : Env} {q q' : Queues} {pkt : Pkt} {pkts tx free : List Pkt} {rounds : ℕ}

/-- Buffers the queues hold, in order. -/
def bufs (q : Queues) : List ℕ :=
  q.txSubmitQ.map Pkt.buf ++ q.pktInfo.toList.map Pkt.buf ++ q.rxReadyQ.map Pkt.buf

/-- A round moves no buffer out of the queues and none into them. -/
theorem bufs_pktRound (h : q.pktInfo = some pkt) : bufs (pktRound env q pkt) = bufs q := by
  unfold pktRound bufs
  split_ifs
  · unfold deqRx
    cases hrx : q.rxReadyQ with
    | nil => simp [h,edited]
    | cons next rest => simp [h,edited]
  · simp [h]

/-- The loop leaves the queue of free buffers alone. -/
theorem rxFreeQ_pktRound : (pktRound env q pkt).rxFreeQ = q.rxFreeQ := by
  unfold pktRound deqRx
  split_ifs
  · split <;> rfl
  · rfl

/-- With no packet in hand nothing waits. -/
def Drained (q : Queues) : Prop := q.pktInfo = none → q.rxReadyQ = []

theorem drained_deqRx (q : Queues) : Drained (deqRx q) := by
  unfold Drained deqRx
  split
  · intro _
    assumption
  · intro h
    cases h

theorem drained_pktRound : Drained (pktRound env q pkt) := by
  unfold pktRound
  split_ifs
  · exact drained_deqRx _
  · intro h
    cases h

theorem pktLoop_none (h : q.pktInfo = none) : pktLoop env rounds q = some q := by
  cases rounds with
  | zero => simp [pktLoop,h]
  | succ rounds => simp [pktLoop,h]

theorem pktLoop_some (h : q.pktInfo = some pkt) :
    pktLoop env (rounds + 1) q = pktLoop env rounds (pktRound env q pkt) := by
  simp [pktLoop,h]

/-- A drained queue with no packet in hand has its buffers for transmission. -/
theorem bufs_done (hq : Drained q) (hnone : q.pktInfo = none) :
    q.rxReadyQ = [] ∧ q.txSubmitQ.map Pkt.buf = bufs q := by
  refine ⟨hq hnone,?_⟩
  unfold bufs
  simp [hnone,hq hnone]

/-- A loop that ends has moved every buffer to the transmit queue and left
the free queue alone. -/
theorem pktLoop_kept (hq : Drained q) (h : pktLoop env rounds q = some q') :
    q'.rxReadyQ = [] ∧ q'.txSubmitQ.map Pkt.buf = bufs q ∧ q'.rxFreeQ = q.rxFreeQ := by
  induction rounds generalizing q with
  | zero =>
    cases hp : q.pktInfo with
    | none =>
      rw [pktLoop_none hp] at h
      cases h
      obtain ⟨hempty,hbufs⟩ := bufs_done hq hp
      exact ⟨hempty,hbufs,rfl⟩
    | some pkt => simp [pktLoop,hp] at h
  | succ rounds ih =>
    cases hp : q.pktInfo with
    | none =>
      rw [pktLoop_none hp] at h
      cases h
      obtain ⟨hempty,hbufs⟩ := bufs_done hq hp
      exact ⟨hempty,hbufs,rfl⟩
    | some pkt =>
      rw [pktLoop_some hp] at h
      obtain ⟨hempty,hbufs,hfree⟩ := ih drained_pktRound h
      exact ⟨hempty,hbufs.trans (bufs_pktRound hp),hfree.trans rxFreeQ_pktRound⟩

/-- Where every edit succeeds the loop takes one round a packet. -/
theorem pktLoop_of_ok (hok : ∀ pkt ∈ pkts, editOk env pkt) (hrounds : pkts.length ≤ rounds) :
    pktLoop env rounds (deqRx ⟨pkts,tx,free,none⟩) =
      some ⟨[],tx ++ pkts.map (edited env),free,none⟩ := by
  induction pkts generalizing tx rounds with
  | nil =>
    rw [pktLoop_none rfl,List.map_nil,List.append_nil]
    rfl
  | cons pkt pkts ih =>
    obtain ⟨hpkt,hpkts⟩ := List.forall_mem_cons.mp hok
    rw [List.length_cons] at hrounds
    obtain ⟨rounds,rfl⟩ : ∃ r, rounds = r + 1 := ⟨rounds - 1,by omega⟩
    have hround : pktRound env (deqRx ⟨pkt :: pkts,tx,free,none⟩) pkt =
        deqRx ⟨pkts,tx ++ [edited env pkt],free,none⟩ := by
      unfold pktRound
      rw [if_pos hpkt]
      cases pkts <;> rfl
    have hhand : (deqRx ⟨pkt :: pkts,tx,free,none⟩).pktInfo = some pkt := rfl
    rw [pktLoop_some hhand,hround,ih hpkts (by omega),List.map_cons,
      List.append_assoc,List.singleton_append]

/-- A packet whose edit fails and leaves its frame as it was is edited for
ever. -/
theorem pktLoop_of_stuck (hp : q.pktInfo = some pkt) (hfail : editOk env pkt = false)
    (hkeep : ∀ f v, (env.changeVlanId f v).2 ≠ sok → (env.changeVlanId f v).1 = f) :
    pktLoop env rounds q = none := by
  induction rounds generalizing q pkt with
  | zero => simp [pktLoop,hp]
  | succ rounds ih =>
    have hne : (editVlan env pkt).2 ≠ sok := by simpa [editOk] using hfail
    have hframe : (editVlan env pkt).1 = setAddresses env pkt.frame := hkeep _ _ hne
    -- The addresses are written again, over themselves.
    have hagain : editVlan env ⟨pkt.buf,(editVlan env pkt).1⟩ = editVlan env pkt := by
      rw [hframe]
      rfl
    rw [pktLoop_some hp]
    have hnext : (pktRound env q pkt).pktInfo = some ⟨pkt.buf,(editVlan env pkt).1⟩ := by
      unfold pktRound
      rw [if_neg (by rw [hfail]; exact Bool.false_ne_true)]
    refine ih hnext ?_
    unfold editOk
    rw [hagain]
    exact hfail

end Loop

section Runs

variable {env : Env} {s s' : SwitchTask} {rounds : ℕ} {rs : List (Option (List Pkt))}

theorem deqRx_received (pkts : List Pkt) :
    bufs (deqRx ⟨pkts,[],[],none⟩) = pkts.map Pkt.buf ∧
    (deqRx ⟨pkts,[],[],none⟩).rxFreeQ = [] := by
  cases pkts <;> exact ⟨rfl,rfl⟩

/-- An iteration that ends has submitted every packet received, and handed
none back. -/
theorem iteration_kept {r : Option (List Pkt)} (h : iteration env rounds s r = some s') :
    s'.returned = s.returned ∧
    s'.submitted.map Pkt.buf = s.submitted.map Pkt.buf ++ (r.getD []).map Pkt.buf := by
  unfold iteration at h
  split_ifs at h
  match r with
  | none =>
    cases h
    exact ⟨rfl,by simp⟩
  | some [] =>
    cases h
    exact ⟨rfl,by simp⟩
  | some (pkt :: pkts) =>
    obtain ⟨q,hq,rfl⟩ := Option.map_eq_some_iff.mp h
    obtain ⟨-,hbufs,hfree⟩ := pktLoop_kept (drained_deqRx _) hq
    obtain ⟨hreceived,hempty⟩ := deqRx_received (pkt :: pkts)
    rw [hreceived] at hbufs
    rw [hempty] at hfree
    refine ⟨?_,?_⟩
    · rw [hfree,List.append_nil]
    · rw [List.map_append,hbufs,Option.getD_some]

/-- A run that ends has submitted the buffer of every packet once and in
order, whatever the edits did on the way. -/
theorem pktRxTx_kept (h : pktRxTx env rounds s rs = some s') :
    s'.returned = s.returned ∧
    s'.submitted.map Pkt.buf = s.submitted.map Pkt.buf ++ (arrived rs).map Pkt.buf := by
  induction rs generalizing s with
  | nil =>
    cases h
    exact ⟨rfl,by simp [arrived]⟩
  | cons r rs ih =>
    obtain ⟨t,ht,hrest⟩ := Option.bind_eq_some_iff.mp h
    obtain ⟨hreturned,hsubmitted⟩ := iteration_kept ht
    obtain ⟨hreturned',hsubmitted'⟩ := ih hrest
    refine ⟨hreturned'.trans hreturned,?_⟩
    rw [hsubmitted',hsubmitted,List.append_assoc,← List.map_append]
    rfl

/-- An iteration in which every edit succeeds. -/
theorem iteration_of_ok {r : Option (List Pkt)} (hs : s.rxReadyQ = [])
    (hok : ∀ pkt ∈ r.getD [], editOk env pkt) (hrounds : (r.getD []).length ≤ rounds) :
    iteration env rounds s r =
      some { rxReadyQ := []
             numPkts := s.numPkts + (r.getD []).length
             submitted := s.submitted ++ (r.getD []).map (edited env)
             returned := s.returned } := by
  have hsame : s = ⟨[],s.numPkts,s.submitted,s.returned⟩ := by rw [← hs]
  unfold iteration
  rw [hs,List.isEmpty_nil,if_pos rfl]
  match r with
  | none =>
    simp only [Option.getD_none,List.length_nil,List.map_nil,List.append_nil,Nat.add_zero]
    rw [← hsame]
  | some [] =>
    simp only [Option.getD_some,List.length_nil,List.map_nil,List.append_nil,Nat.add_zero]
    rw [← hsame]
  | some (pkt :: pkts) =>
    simp only [Option.getD_some] at hok hrounds ⊢
    rw [pktLoop_of_ok hok hrounds]
    simp

/-- A run in which every edit succeeds. -/
theorem pktRxTx_of_ok (hs : s.rxReadyQ = []) (hok : ∀ pkt ∈ arrived rs, editOk env pkt)
    (hrounds : (arrived rs).length ≤ rounds) :
    ∃ s', pktRxTx env rounds s rs = some s' ∧ s'.rxReadyQ = [] ∧
      s'.submitted = s.submitted ++ (arrived rs).map (edited env) := by
  induction rs generalizing s with
  | nil => exact ⟨s,rfl,hs,by simp [arrived]⟩
  | cons r rs ih =>
    have hsplit : arrived (r :: rs) = r.getD [] ++ arrived rs := by simp [arrived]
    rw [hsplit] at hok hrounds ⊢
    rw [List.length_append] at hrounds
    obtain ⟨hr,hrs⟩ := List.forall_mem_append.mp hok
    have hfits : (r.getD []).length ≤ rounds := by omega
    have hiter := iteration_of_ok hs hr hfits
    generalize hnext : SwitchTask.mk [] (s.numPkts + (r.getD []).length)
      (s.submitted ++ (r.getD []).map (edited env)) s.returned = next at hiter
    obtain ⟨s',hrun,hempty,hsub⟩ := ih (s := next) (by rw [← hnext]) hrs (by omega)
    refine ⟨s',?_,hempty,?_⟩
    · rw [pktRxTx,hiter]
      exact hrun
    · rw [hsub,← hnext,List.map_append,List.append_assoc]

end Runs

/-- The task consumes every packet of every run exactly when no VLAN edit
fails. -/
theorem consumed_iff (env : Env) (rs : List (Option (List Pkt))) :
    Consumed env start rs ↔ ∀ pkt ∈ arrived rs, editOk env pkt := by
  constructor
  · rintro ⟨rounds,s',hrun,-,-,hreturned⟩ pkt hpkt
    rw [(pktRxTx_kept hrun).1] at hreturned
    have hnone : (arrived rs).filter (fun pkt => !editOk env pkt) = [] := by
      simpa [start] using hreturned
    simpa using List.filter_eq_nil_iff.mp hnone pkt hpkt
  · intro hok
    obtain ⟨s',hrun,hempty,hsub⟩ := pktRxTx_of_ok (s := start) rfl hok le_rfl
    have hall : (arrived rs).filter (editOk env) = arrived rs :=
      List.filter_eq_self.mpr hok
    have hnone : (arrived rs).filter (fun pkt => !editOk env pkt) = [] :=
      List.filter_eq_nil_iff.mpr fun pkt hpkt => by simp [hok pkt hpkt]
    refine ⟨_,s',hrun,hempty,?_,?_⟩
    · rw [hall]
      exact hsub
    · rw [hnone,(pktRxTx_kept hrun).1]
      simp

/-- A frame library that refuses frames without a tag. -/
def taggedOnly : Env where
  testDstMacAddr := MacAddr.bcast
  hostMacAddr := MacAddr.bcast
  changeVlanId f v := if f.tpid = 0x8100#16 then ({ f with tci := v },sok) else (f,efail)
  decrementTTL f := f

/-- A packet with an untagged IPv4 frame. -/
def untagged : Pkt := ⟨0,MacAddr.bcast,MacAddr.bcast,0x0800,0,0,[]⟩

/-- The task never gets through an untagged frame. -/
theorem untagged_frame_edited_for_ever : ¬ Consumed taggedOnly start [some [untagged]] := by
  rintro ⟨rounds,s',hrun,-⟩
  have hloop : pktLoop taggedOnly rounds (deqRx ⟨[untagged],[],[],none⟩) = none := by
    have hhand : (deqRx ⟨[untagged],[],[],none⟩).pktInfo = some untagged := rfl
    refine pktLoop_of_stuck hhand (by decide) ?_
    intro f v hne
    unfold taggedOnly at hne ⊢
    dsimp only at hne ⊢
    split_ifs at hne ⊢
    · exact absurd rfl hne
    · rfl
  have hiter : iteration taggedOnly rounds start (some [untagged]) = none := by
    unfold iteration
    dsimp only
    rw [hloop]
    rfl
  rw [pktRxTx,hiter] at hrun
  cases hrun

end EthernetFirmware.InterVlanSwitch
