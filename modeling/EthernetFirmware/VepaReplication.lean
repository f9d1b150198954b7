import EthernetFirmware.EthernetFrames
import EthernetFirmware.VepaMap

/-!
# Replication of multicast and broadcast frames

A frame of the packet duplication flow goes out once for each virtual port
the table has for its address and VLAN, except the port its source address
belongs to. A copy is the frame with a tag of the port's private VLAN. One
buffer serves all copies, and the link takes the bytes when it is handed
the buffer. The status the call ends with is the one of the last port: it
says nothing about the link, nothing about earlier ports, and a frame no
port waits for is an error.
-/

namespace EthernetFirmware.VepaReplication

open BitMasks SlotTables RemoteConfig VepaTable VepaMap EthernetFrames

/-- Length of the port arrays, `ETHREMOTECFG_SWITCH_PORT_LAST + 1`. -/
def portCount : ℕ := 29

/-- Index of the port arrays. -/
abbrev Port := Fin portCount

/-- The masks of the table name ports of the arrays only. -/
def PortsOnly (t : Table) : Prop :=
  ∀ i n, isSet (t i).virtPortMask n = true → n < portCount

/-- What replication reads of `EthFwVepa_Obj`. -/
structure VepaPorts where
  /-- The table. -/
  remoteCoreVepaTable : Table
  /-- Private VLAN of each port; zero when it has none. -/
  privVlanCfg : Port → U16
  /-- Address behind each port. -/
  virtPortToMacAddr : Port → MacAddr
  /-- The table names ports of the arrays. -/
  portsOnly : PortsOnly remoteCoreVepaTable

/-- A copy handed to the link. -/
structure Copy where
  /-- The port it is for. -/
  port : Port
  /-- The bytes of the buffer. -/
  bytes : List U8
  /-- The link took it. -/
  sent : Bool
  deriving DecidableEq

/-- What a call leaves. -/
structure Result where
  /-- Its status. -/
  status : Status
  /-- The copies, in the order they were handed over. -/
  copies : List Copy

/-- `EthFwVepa_getPrivateVlanId`; without a result the call fails. -/
def getPrivateVlanId (v : VepaPorts) (virtPort : Port) : Option U16 :=
  if v.privVlanCfg virtPort = 0#16 then none else some (v.privVlanCfg virtPort)

/-- Priority and drop eligibility of the tag. -/
def pcpDei : U16 := 0#16

/-- What is written to the buffer for a port. -/
def duplicate (f : Frame) (ethSrcAddr ethDstAddr : MacAddr) (privVlanId : U16) : List U8 :=
  octets ethDstAddr ++ octets ethSrcAddr ++ vlanTag (pcpDei ||| privVlanId) ++
    (be16 f.ethType ++ f.payload)

/-- Length of the buffer: the allocator takes a 16-bit word. -/
def copyLen (f : Frame) : ℕ := (f.totLen + 4) % 2 ^ 16

/-- The port gets the frame: it is in the mask and the frame is not its own. -/
def wanted (v : VepaPorts) (virtPortMask : U32) (ethSrcAddr : MacAddr) (i : Port) : Bool :=
  isSet virtPortMask i.val && !decide (ethSrcAddr = v.virtPortToMacAddr i)

/-- One round of the loop of `EthFwVepa_sendRaw`, with what the link does for each port. -/
def sendTo (v : VepaPorts) (f : Frame) (virtPortMask : U32) (ethSrcAddr ethDstAddr : MacAddr)
    (link : Port → Bool) (r : Result) (i : Port) : Result :=
  if wanted v virtPortMask ethSrcAddr i then
    match getPrivateVlanId v i with
    | some privVlanId =>
      let bytes := (duplicate f ethSrcAddr ethDstAddr privVlanId).take (copyLen f)
      -- What `linkoutput` returns is not looked at.
      ⟨sok,r.copies ++ [⟨i,bytes,link i⟩]⟩
    | none => ⟨efail,r.copies⟩
  else r

/-- `EthFwVepa_sendRaw`, given whether the buffer was allocated. -/
def sendRaw (v : VepaPorts) (f : Frame) (ethSrcAddr ethDstAddr : MacAddr) (alloc : Bool)
    (link : Port → Bool) : Result :=
  match getVirtPortMask v.remoteCoreVepaTable f.dest f.vlanId with
  | some virtPortMask =>
    if alloc then
      (List.finRange portCount).foldl (sendTo v f virtPortMask ethSrcAddr ethDstAddr link) ⟨sok,[]⟩
    else ⟨efail,[]⟩
  | none => ⟨efail,[]⟩

/-- `EthFwCallbacks_handlePacketDuplicationRxPktFxn`: the frame goes on to the network
stack whatever became of its copies. -/
def handlePacketDuplicationRxPktFxn (v : VepaPorts) (f : Frame) (alloc : Bool)
    (link : Port → Bool) : Bool × Result :=
  (false,sendRaw v f f.src f.dest alloc link)

/-- Ports registered for the address and VLAN of the frame. -/
def registered (v : VepaPorts) (f : Frame) : Finset Port :=
  (getVirtPortMask v.remoteCoreVepaTable f.dest f.vlanId).elim ∅ fun mask =>
    Finset.univ.filter fun i => isSet mask i.val = true

/-- Registered ports other than the one the frame comes from. -/
def targets (v : VepaPorts) (f : Frame) : Finset Port :=
  (registered v f).filter fun i => f.src ≠ v.virtPortToMacAddr i

/-- Replication of the frame is exact. -/
structure Exact (v : VepaPorts) (f : Frame) (alloc : Bool) (link : Port → Bool) : Prop where
  /-- No port gets two copies. -/
  once : ((sendRaw v f f.src f.dest alloc link).copies.map Copy.port).Nodup
  /-- Only targets get one. -/
  only : ∀ c ∈ (sendRaw v f f.src f.dest alloc link).copies, c.port ∈ targets v f
  /-- With a buffer every target gets one. -/
  every : alloc = true → ∀ i ∈ targets v f,
    ∃ c ∈ (sendRaw v f f.src f.dest alloc link).copies, c.port = i
  /-- A copy is the frame with a tag of the port's private VLAN. -/
  carries : ∀ c ∈ (sendRaw v f f.src f.dest alloc link).copies,
    HasTag (v.privVlanCfg c.port) c.bytes ∧ stripTag c.bytes = f.bytes
  /-- The call succeeds exactly when every target's copy was sent. -/
  success : (sendRaw v f f.src f.dest alloc link).status = sok ↔ ∀ i ∈ targets v f,
    ∃ c ∈ (sendRaw v f f.src f.dest alloc link).copies, c.port = i ∧ c.sent = true

/-- The address and VLAN of the frame have an entry, and either no buffer was allocated for
a frame somebody waits for, or every target has a private VLAN and takes a frame four bytes
longer. -/
def Replicable (v : VepaPorts) (f : Frame) (alloc : Bool) (link : Port → Bool) : Prop :=
  Known v.remoteCoreVepaTable f.dest f.vlanId ∧
    if alloc then
      ∀ i ∈ targets v f, v.privVlanCfg i ≠ 0#16 ∧ link i = true ∧ f.totLen + 4 < 2 ^ 16
    else (targets v f).Nonempty

section Tables

variable {t : Table} {v : VepaPorts} {f : Frame}

theorem PortId.toNat_lt_portCount (p : PortId) : p.val.toNat < portCount := by
  rcases p.property with h | h
  · have := toNat_of_isMacPort h
    simp only [portCount]
    omega
  · have := toNat_of_isSwitchPort h
    simp only [portCount]
    omega

theorem portsOnly_flushTable : PortsOnly flushTable := by
  intro i n h
  simp [flushTable] at h

theorem PortsOnly.update {i : Fin tableSize} {e : AddrEntry} (h : PortsOnly t)
    (he : ∀ n, isSet e.virtPortMask n = true → n < portCount) :
    PortsOnly (Function.update t i e) := by
  intro j n hj
  by_cases hji : j = i
  · subst hji
    rw [Function.update_self] at hj
    exact he n hj
  · rw [Function.update_of_ne hji] at hj
    exact h j n hj

/-- Every call keeps the table to the ports of the arrays. -/
theorem PortsOnly.onTable (h : PortsOnly t) (c : Call) : PortsOnly (onTable t c).2 := by
  cases c with
  | add hwAddr vlanId virtPort =>
    change PortsOnly (addAddr t hwAddr vlanId virtPort).2
    unfold addAddr
    have hport := PortId.toNat_lt_portCount virtPort
    split
    · refine h.update fun n hn => ?_
      by_cases hp : virtPort.val.toNat = n
      · omega
      · exact h _ n ((isSet_setBit_of_ne hp).symm.trans hn)
    · split
      · refine h.update fun n hn => ?_
        by_cases hp : virtPort.val.toNat = n
        · omega
        · rw [isSet_bit_of_ne hp] at hn
          contradiction
      · exact h
  | del hwAddr vlanId virtPort =>
    change PortsOnly (delAddr t hwAddr vlanId virtPort).2
    unfold delAddr
    split
    next i _ =>
      have hclear : ∀ n, isSet (clearBit (t i).virtPortMask virtPort.val.toNat) n = true →
          n < portCount := fun n hn => by
        rw [isSet_clearBit,Bool.and_eq_true] at hn
        exact h i n hn.1
      dsimp only
      split
      · exact h.update hclear
      · exact h.update hclear
    · exact h
  | flush => exact portsOnly_flushTable
  | getMask hwAddr vlanId => exact h
  | useCnt => exact h

theorem mem_registered_iff {i : Port} : i ∈ registered v f ↔
    ∃ mask, getVirtPortMask v.remoteCoreVepaTable f.dest f.vlanId = some mask ∧
      isSet mask i.val = true := by
  unfold registered
  cases getVirtPortMask v.remoteCoreVepaTable f.dest f.vlanId with
  | none => simp
  | some mask => simp

end Tables

section Copies

variable {v : VepaPorts} {f : Frame} {mask : U32} {alloc : Bool} {link : Port → Bool}
  {l : List Port} {r : Result}

/-- The copy of a frame for a port. -/
def copyTo (v : VepaPorts) (f : Frame) (link : Port → Bool) (i : Port) : Copy :=
  ⟨i,(duplicate f f.src f.dest (v.privVlanCfg i)).take (copyLen f),link i⟩

/-- The port gets the frame and has a private VLAN to get it on. -/
def served (v : VepaPorts) (f : Frame) (mask : U32) (i : Port) : Bool :=
  wanted v mask f.src i && !decide (v.privVlanCfg i = 0#16)

/-- A round hands over the copy of a served port and no other. -/
theorem sendTo_copies (i : Port) : (sendTo v f mask f.src f.dest link r i).copies =
    r.copies ++ ([i].filter (served v f mask)).map (copyTo v f link) := by
  unfold sendTo served getPrivateVlanId
  cases hw : wanted v mask f.src i with
  | false => simp [hw]
  | true =>
    by_cases hp : v.privVlanCfg i = 0#16
    · simp [hw,hp]
    · simp [hw,hp,copyTo]

/-- The loop hands over the copies of the served ports, in port order. -/
theorem foldl_copies :
    (l.foldl (sendTo v f mask f.src f.dest link) r).copies =
      r.copies ++ (l.filter (served v f mask)).map (copyTo v f link) := by
  induction l generalizing r with
  | nil => simp
  | cons i l ih =>
    rw [List.foldl_cons,ih,sendTo_copies,List.append_assoc,← List.map_append,
      ← List.filter_append,List.singleton_append]

/-- A round of a port that is served, or is none of the frame's, keeps the status. -/
theorem sendTo_status {i : Port} (hr : r.status = sok)
    (hi : wanted v mask f.src i = true → v.privVlanCfg i ≠ 0#16) :
    (sendTo v f mask f.src f.dest link r i).status = sok := by
  unfold sendTo getPrivateVlanId
  cases hw : wanted v mask f.src i with
  | false => simpa using hr
  | true => simp [hi hw]

theorem foldl_status (hr : r.status = sok)
    (hl : ∀ i ∈ l, wanted v mask f.src i = true → v.privVlanCfg i ≠ 0#16) :
    (l.foldl (sendTo v f mask f.src f.dest link) r).status = sok := by
  induction l generalizing r with
  | nil => exact hr
  | cons i l ih =>
    rw [List.foldl_cons]
    exact ih (sendTo_status hr (hl i (by simp))) fun j hj => hl j (by simp [hj])

/-- The targets of a frame with an entry are the ports the loop serves. -/
theorem mem_targets_iff {i : Port}
    (hm : getVirtPortMask v.remoteCoreVepaTable f.dest f.vlanId = some mask) :
    i ∈ targets v f ↔ wanted v mask f.src i = true := by
  rw [targets,Finset.mem_filter,mem_registered_iff,hm,wanted]
  simp

theorem targets_eq_empty (hm : getVirtPortMask v.remoteCoreVepaTable f.dest f.vlanId = none) :
    targets v f = ∅ := by
  simp [targets,registered,hm]

theorem known_iff_mask : Known v.remoteCoreVepaTable f.dest f.vlanId ↔
    ∃ mask, getVirtPortMask v.remoteCoreVepaTable f.dest f.vlanId = some mask := by
  rw [Known,getVirtPortMask]
  simp [Option.isSome_iff_exists]

/-- With an entry and a buffer the call is its loop. -/
theorem sendRaw_eq (hm : getVirtPortMask v.remoteCoreVepaTable f.dest f.vlanId = some mask) :
    sendRaw v f f.src f.dest true link =
      (List.finRange portCount).foldl (sendTo v f mask f.src f.dest link) ⟨sok,[]⟩ := by
  unfold sendRaw
  rw [hm]
  exact if_pos rfl

/-- The copies of a frame. -/
theorem copies_eq (hm : getVirtPortMask v.remoteCoreVepaTable f.dest f.vlanId = some mask) :
    (sendRaw v f f.src f.dest true link).copies =
      ((List.finRange portCount).filter (served v f mask)).map (copyTo v f link) := by
  rw [sendRaw_eq hm,foldl_copies,List.nil_append]

theorem not_known_of_none (hm : getVirtPortMask v.remoteCoreVepaTable f.dest f.vlanId = none) :
    ¬ Known v.remoteCoreVepaTable f.dest f.vlanId := by
  rw [known_iff_mask,hm]
  simp

/-- Without an entry or a buffer the call fails at once. -/
theorem sendRaw_failed (h : ¬ Known v.remoteCoreVepaTable f.dest f.vlanId ∨ alloc = false) :
    sendRaw v f f.src f.dest alloc link = ⟨efail,[]⟩ := by
  unfold sendRaw
  cases hm : getVirtPortMask v.remoteCoreVepaTable f.dest f.vlanId with
  | none => rfl
  | some mask =>
    have ha : alloc = false := h.resolve_left (not_not.mpr (known_iff_mask.mpr ⟨mask,hm⟩))
    simp [ha]

/-- It makes no copies then. -/
theorem copies_eq_nil
    (h : ¬ Known v.remoteCoreVepaTable f.dest f.vlanId ∨ alloc = false) :
    (sendRaw v f f.src f.dest alloc link).copies = [] :=
  congrArg Result.copies (sendRaw_failed h)

/-- The copies go to the targets that have a private VLAN. -/
theorem mem_copies_iff {c : Copy} : c ∈ (sendRaw v f f.src f.dest alloc link).copies ↔
    alloc = true ∧ c.port ∈ targets v f ∧ v.privVlanCfg c.port ≠ 0#16 ∧
      c = copyTo v f link c.port := by
  cases hm : getVirtPortMask v.remoteCoreVepaTable f.dest f.vlanId with
  | none =>
    rw [copies_eq_nil (Or.inl (not_known_of_none hm)),targets_eq_empty hm]
    simp
  | some mask =>
    cases ha : alloc with
    | false =>
      rw [copies_eq_nil (Or.inr rfl)]
      simp
    | true =>
      rw [copies_eq hm,List.mem_map]
      simp only [List.mem_filter,List.mem_finRange,true_and,served,Bool.and_eq_true,
        Bool.not_eq_true',decide_eq_false_iff_not,mem_targets_iff hm]
      refine ⟨?_,fun ⟨hw,hp,hc⟩ => ⟨c.port,⟨hw,hp⟩,hc.symm⟩⟩
      rintro ⟨i,⟨hw,hp⟩,rfl⟩
      exact ⟨hw,hp,rfl⟩

/-- No port gets two copies. -/
theorem nodup_ports : ((sendRaw v f f.src f.dest alloc link).copies.map Copy.port).Nodup := by
  cases hm : getVirtPortMask v.remoteCoreVepaTable f.dest f.vlanId with
  | none =>
    rw [copies_eq_nil (Or.inl (not_known_of_none hm))]
    exact List.nodup_nil
  | some mask =>
    cases ha : alloc with
    | false =>
      rw [copies_eq_nil (Or.inr rfl)]
      exact List.nodup_nil
    | true =>
      have hport : Copy.port ∘ copyTo v f link = id := rfl
      rw [copies_eq hm,List.map_map,hport,List.map_id]
      exact (List.nodup_finRange _).filter _

/-- A copy that is not cut off is the frame with the tag. -/
theorem copy_carries (i : Port) (h : f.totLen + 4 < 2 ^ 16) :
    HasTag (v.privVlanCfg i) (copyTo v f link i).bytes ∧
      stripTag (copyTo v f link i).bytes = f.bytes := by
  have hlen : (duplicate f f.src f.dest (v.privVlanCfg i)).length = copyLen f := by
    rw [copyLen,Nat.mod_eq_of_lt h]
    simp only [duplicate,List.length_append,length_octets,length_vlanTag,length_be16,
      Frame.length_payload,Frame.totLen]
    omega
  have hbytes : (copyTo v f link i).bytes = octets f.dest ++ octets f.src ++
      vlanTag (v.privVlanCfg i) ++ (be16 f.ethType ++ f.payload) := by
    change List.take (copyLen f) _ = _
    rw [List.take_of_length_le hlen.le,duplicate,pcpDei,BitVec.zero_or]
  rw [hbytes]
  refine ⟨hasTag_insert,?_⟩
  rw [stripTag_insert,Frame.bytes,List.append_assoc _ (be16 f.ethType)]

/-- A frame with no room for four more bytes loses its tag. -/
theorem not_carries (i : Port) (h : ¬ f.totLen + 4 < 2 ^ 16) :
    ¬ HasTag (v.privVlanCfg i) (copyTo v f link i).bytes := by
  apply not_hasTag_of_short
  have hmod : copyLen f ≤ 12 := by
    have hlt := f.totLen_lt
    simp only [copyLen,Frame.totLen] at h ⊢
    omega
  exact (List.length_take_le ..).trans hmod

/-- With an entry, a buffer and a private VLAN for every target the call succeeds. -/
theorem status_of_private (hk : Known v.remoteCoreVepaTable f.dest f.vlanId)
    (hp : ∀ i ∈ targets v f, v.privVlanCfg i ≠ 0#16) :
    (sendRaw v f f.src f.dest true link).status = sok := by
  obtain ⟨mask,hm⟩ := known_iff_mask.mp hk
  rw [sendRaw_eq hm]
  exact foldl_status rfl fun i _ hi => hp i ((mem_targets_iff hm).mpr hi)

/-- Without an entry or a buffer it fails. -/
theorem status_of_none (h : ¬ Known v.remoteCoreVepaTable f.dest f.vlanId ∨ alloc = false) :
    (sendRaw v f f.src f.dest alloc link).status = efail :=
  congrArg Result.status (sendRaw_failed h)

end Copies

section Exactness

variable {v : VepaPorts} {f : Frame} {alloc : Bool} {link : Port → Bool}

theorem targets_eq_empty_of_unknown (hk : ¬ Known v.remoteCoreVepaTable f.dest f.vlanId) :
    targets v f = ∅ := by
  apply targets_eq_empty
  rw [known_iff_mask] at hk
  exact Option.eq_none_iff_forall_ne_some.mpr fun mask hm => hk ⟨mask,hm⟩

/-- Nobody waits for a frame the call fails on without a copy only if replication is not
exact: there was nothing to fail. -/
theorem Exact.nonempty (h : Exact v f alloc link)
    (hfail : (sendRaw v f f.src f.dest alloc link).status = efail) : (targets v f).Nonempty := by
  by_contra hne
  rw [Finset.not_nonempty_iff_eq_empty] at hne
  have hok := h.success.mpr (by simp [hne])
  rw [hok] at hfail
  exact efail_ne_sok hfail.symm

theorem Exact.known (h : Exact v f alloc link) :
    Known v.remoteCoreVepaTable f.dest f.vlanId := by
  by_contra hk
  have hne := h.nonempty (status_of_none (Or.inl hk))
  rw [targets_eq_empty_of_unknown hk] at hne
  exact Finset.not_nonempty_empty hne

theorem Exact.privVlanCfg_ne (h : Exact v f true link) (i : Port) (hi : i ∈ targets v f) :
    v.privVlanCfg i ≠ 0#16 := by
  obtain ⟨c,hc,rfl⟩ := h.every rfl i hi
  exact (mem_copies_iff.mp hc).2.2.1

theorem Exact.totLen_lt (h : Exact v f true link) {i : Port} (hi : i ∈ targets v f) :
    f.totLen + 4 < 2 ^ 16 := by
  by_contra hlen
  obtain ⟨c,hc,rfl⟩ := h.every rfl i hi
  have hcopy := (mem_copies_iff.mp hc).2.2.2
  have htag := (h.carries c hc).1
  rw [hcopy] at htag
  exact not_carries _ hlen htag

theorem Exact.link_eq (h : Exact v f true link) (i : Port) (hi : i ∈ targets v f) :
    link i = true := by
  have hok : (sendRaw v f f.src f.dest true link).status = sok :=
    status_of_private h.known h.privVlanCfg_ne
  obtain ⟨c,hc,rfl,hsent⟩ := h.success.mp hok i hi
  rw [(mem_copies_iff.mp hc).2.2.2] at hsent
  exact hsent

/-- A target with a private VLAN has its copy. -/
theorem copyTo_mem {i : Port} (hi : i ∈ targets v f) (hp : v.privVlanCfg i ≠ 0#16) :
    copyTo v f link i ∈ (sendRaw v f f.src f.dest true link).copies :=
  mem_copies_iff.mpr ⟨rfl,hi,hp,rfl⟩

/-- Without a buffer for a frame somebody waits for, failing is right. -/
theorem exact_of_no_buffer (hne : (targets v f).Nonempty) : Exact v f false link := by
  have hnil : (sendRaw v f f.src f.dest false link).copies = [] := copies_eq_nil (Or.inr rfl)
  refine ⟨nodup_ports,fun c hc => (mem_copies_iff.mp hc).2.1,fun ha => by contradiction,?_,?_⟩
  · intro c hc
    rw [hnil] at hc
    simp at hc
  · rw [status_of_none (Or.inr rfl),hnil]
    obtain ⟨i,hi⟩ := hne
    refine iff_of_false efail_ne_sok fun hall => ?_
    obtain ⟨c,hc,_⟩ := hall i hi
    simp at hc

theorem exact_of_served (hk : Known v.remoteCoreVepaTable f.dest f.vlanId)
    (h : ∀ i ∈ targets v f, v.privVlanCfg i ≠ 0#16 ∧ link i = true ∧ f.totLen + 4 < 2 ^ 16) :
    Exact v f true link := by
  refine ⟨nodup_ports,fun c hc => (mem_copies_iff.mp hc).2.1,?_,?_,?_⟩
  · intro _ i hi
    exact ⟨copyTo v f link i,copyTo_mem hi (h i hi).1,rfl⟩
  · intro c hc
    obtain ⟨_,ht,_,hcopy⟩ := mem_copies_iff.mp hc
    have hcarry : HasTag (v.privVlanCfg c.port) (copyTo v f link c.port).bytes ∧
        stripTag (copyTo v f link c.port).bytes = f.bytes :=
      copy_carries c.port (h c.port ht).2.2
    rwa [← hcopy] at hcarry
  · refine iff_of_true (status_of_private hk fun i hi => (h i hi).1) fun i hi => ?_
    exact ⟨copyTo v f link i,copyTo_mem hi (h i hi).1,rfl,(h i hi).2.1⟩

/-- Replication is exact exactly when the address and VLAN of the frame have an entry and
every target takes its copy, or no buffer was allocated for a frame somebody waits for. -/
theorem replication_exact_iff (v : VepaPorts) (f : Frame) (alloc : Bool) (link : Port → Bool) :
    Exact v f alloc link ↔ Replicable v f alloc link := by
  constructor
  · intro h
    refine ⟨h.known,?_⟩
    cases alloc with
    | false =>
      rw [if_neg Bool.false_ne_true]
      exact h.nonempty (status_of_none (Or.inr rfl))
    | true =>
      rw [if_pos rfl]
      exact fun i hi => ⟨h.privVlanCfg_ne i hi,h.link_eq i hi,h.totLen_lt hi⟩
  · rintro ⟨hk,h⟩
    cases alloc with
    | false =>
      rw [if_neg Bool.false_ne_true] at h
      exact exact_of_no_buffer h
    | true =>
      rw [if_pos rfl] at h
      exact exact_of_served hk h

/-- A table with a port behind the broadcast address. -/
def bcastPorts : VepaPorts where
  remoteCoreVepaTable := (onTable flushTable (.add MacAddr.bcast 0#16 switchPort)).2
  privVlanCfg := fun _ => 2025#16
  virtPortToMacAddr := fun _ => zeroAddr
  portsOnly := portsOnly_flushTable.onTable _

/-- A broadcast frame of 60 bytes. -/
def bcastFrame : Frame where
  dest := MacAddr.bcast
  src := ⟨0x70#8,0xFF#8,0x76#8,0#8,0#8,1#8⟩
  ethType := ethTypeArp
  rest := fun _ => 0#8
  restLen := 46
  totLen_lt := minimal_totLen_lt

/-- The link refuses the only copy, and the call succeeds. -/
theorem refused_copy_reported_sent : ¬ Exact bcastPorts bcastFrame true fun _ => false := by
  intro h
  have hreg : ⟨25,by decide⟩ ∈ targets bcastPorts bcastFrame := by decide
  exact Bool.false_ne_true (h.link_eq _ hreg)

end Exactness

end EthernetFirmware.VepaReplication
